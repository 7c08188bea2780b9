import Mathlib.Data.Vector.Defs

/-!
# SHA-256

The hash function on bytes.  The firmware leaves it to PSA, so every result about
it holds for any function; this one is the real one, by which the results are
applied to concrete files.
-/

namespace SzpiSta

namespace Sha256

/-- `ROTR`. -/
def rotr (n x : UInt32) : UInt32 := x >>> n ||| x <<< (32 - n)

/-- The functions written with a capital sigma. -/
def bigSigma0 (x : UInt32) : UInt32 := rotr 2 x ^^^ rotr 13 x ^^^ rotr 22 x

def bigSigma1 (x : UInt32) : UInt32 := rotr 6 x ^^^ rotr 11 x ^^^ rotr 25 x

/-- Those with a small one. -/
def smallSigma0 (x : UInt32) : UInt32 := rotr 7 x ^^^ rotr 18 x ^^^ x >>> 3

def smallSigma1 (x : UInt32) : UInt32 := rotr 17 x ^^^ rotr 19 x ^^^ x >>> 10

def ch (x y z : UInt32) : UInt32 := (x &&& y) ^^^ (~~~x &&& z)

def maj (x y z : UInt32) : UInt32 := (x &&& y) ^^^ (x &&& z) ^^^ (y &&& z)

/-- The constants of the 64 rounds. -/
def roundConstants : List UInt32 :=
  [0x428a2f98, 0x71374491, 0xb5c0fbcf, 0xe9b5dba5, 0x3956c25b, 0x59f111f1,
    0x923f82a4, 0xab1c5ed5, 0xd807aa98, 0x12835b01, 0x243185be, 0x550c7dc3,
    0x72be5d74, 0x80deb1fe, 0x9bdc06a7, 0xc19bf174, 0xe49b69c1, 0xefbe4786,
    0x0fc19dc6, 0x240ca1cc, 0x2de92c6f, 0x4a7484aa, 0x5cb0a9dc, 0x76f988da,
    0x983e5152, 0xa831c66d, 0xb00327c8, 0xbf597fc7, 0xc6e00bf3, 0xd5a79147,
    0x06ca6351, 0x14292967, 0x27b70a85, 0x2e1b2138, 0x4d2c6dfc, 0x53380d13,
    0x650a7354, 0x766a0abb, 0x81c2c92e, 0x92722c85, 0xa2bfe8a1, 0xa81a664b,
    0xc24b8b70, 0xc76c51a3, 0xd192e819, 0xd6990624, 0xf40e3585, 0x106aa070,
    0x19a4c116, 0x1e376c08, 0x2748774c, 0x34b0bcb5, 0x391c0cb3, 0x4ed8aa4a,
    0x5b9cca4f, 0x682e6ff3, 0x748f82ee, 0x78a5636f, 0x84c87814, 0x8cc70208,
    0x90befffa, 0xa4506ceb, 0xbef9a3f7, 0xc67178f2]

/-- The working variables, or a hash value. -/
structure Words where
  a : UInt32
  b : UInt32
  c : UInt32
  d : UInt32
  e : UInt32
  f : UInt32
  g : UInt32
  h : UInt32

def Words.initial : Words where
  a := 0x6a09e667
  b := 0xbb67ae85
  c := 0x3c6ef372
  d := 0xa54ff53a
  e := 0x510e527f
  f := 0x9b05688c
  g := 0x1f83d9ab
  h := 0x5be0cd19

/-- One round, with the sum of its constant and its word of the schedule. -/
def Words.round (v : Words) (word : UInt32) : Words :=
  let t1 := v.h + bigSigma1 v.e + ch v.e v.f v.g + word
  let t2 := bigSigma0 v.a + maj v.a v.b v.c
  ⟨t1 + t2, v.a, v.b, v.c, v.d + t1, v.e, v.f, v.g⟩

def Words.add (v w : Words) : Words :=
  ⟨v.a + w.a, v.b + w.b, v.c + w.c, v.d + w.d, v.e + w.e, v.f + w.f,
    v.g + w.g, v.h + w.h⟩

/-- So many further words of the schedule, the newest first. -/
def extend : Nat → List UInt32 → List UInt32
  | 0, words => words
  | n + 1, words =>
      extend n ((smallSigma1 (words.getD 1 0) + words.getD 6 0 +
        smallSigma0 (words.getD 14 0) + words.getD 15 0) :: words)

def schedule (block : List UInt32) : List UInt32 :=
  (extend 48 block.reverse).reverse

def Words.compress (v : Words) (block : List UInt32) : Words :=
  v.add ((roundConstants.zipWith (· + ·) (schedule block)).foldl Words.round v)

/-- The word of four bytes, the most significant first. -/
def wordOf (bytes : List UInt8) : UInt32 :=
  bytes.foldl (fun word byte => word <<< 8 ||| byte.toUInt32) 0

def bytesOf (word : UInt32) : List UInt8 :=
  [(word >>> 24).toUInt8, (word >>> 16).toUInt8, (word >>> 8).toUInt8,
    word.toUInt8]

/-- The first `n` words of the bytes. -/
def wordsOf : Nat → List UInt8 → List UInt32
  | 0, _ => []
  | n + 1, bytes => wordOf (bytes.take 4) :: wordsOf n (bytes.drop 4)

/-- The number of bits in eight bytes. -/
def bitLength (message : List UInt8) : List UInt8 :=
  (List.range 8).map fun i =>
    UInt8.ofNat ((8 * message.length) >>> (8 * (7 - i)))

/-- Behind the message a one, and zeros up to the length that ends a block. -/
def pad (message : List UInt8) : List UInt8 :=
  let zeros := List.replicate ((119 - message.length % 64) % 64) 0
  message ++ 0x80 :: zeros ++ bitLength message

/-- The hash value after the first `n` blocks of the bytes. -/
def hashBlocks : Nat → List UInt8 → Words → Words
  | 0, _, v => v
  | n + 1, bytes, v =>
      hashBlocks n (bytes.drop 64) (v.compress (wordsOf 16 bytes))

def Words.digest (v : Words) : Vector UInt8 32 :=
  ⟨([v.a, v.b, v.c, v.d, v.e, v.f, v.g, v.h].flatMap bytesOf).toArray, rfl⟩

def hash (message : List UInt8) : Vector UInt8 32 :=
  (hashBlocks ((pad message).length / 64) (pad message) .initial).digest

/-- The value that the standard gives for the three bytes `abc`. -/
example : (hash [97, 98, 99]).toList =
    [0xba, 0x78, 0x16, 0xbf, 0x8f, 0x01, 0xcf, 0xea, 0x41, 0x41, 0x40, 0xde,
      0x5d, 0xae, 0x22, 0x23, 0xb0, 0x03, 0x61, 0xa3, 0x96, 0x17, 0x7a, 0x9c,
      0xb4, 0x10, 0xff, 0x61, 0xf2, 0x00, 0x15, 0xad] := by
  decide +kernel

end Sha256

end SzpiSta
