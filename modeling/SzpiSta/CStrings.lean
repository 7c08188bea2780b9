import Mathlib.Algebra.Group.Int.Defs
import Mathlib.Data.List.Basic
import Mathlib.Data.List.TakeDrop

/-!
# Strings of C

A string is the list of its bytes before the terminator, so none of them is zero.
Comparing two strings finds out whether they are the same, and comparing their
first bytes whether these are, where the terminator counts as a byte.
-/

namespace SzpiSta

namespace CStrings

/-- A terminated string. -/
structure CText where
  bytes : List UInt8
  noNul : 0 ∉ bytes
  deriving DecidableEq

/-- `strcmp`: the difference of the first bytes that differ. -/
def strcmp : List UInt8 → List UInt8 → Int
  | [], [] => 0
  | [], b :: _ => -b.toNat
  | a :: _, [] => a.toNat
  | a :: s, b :: t => if a = b then strcmp s t else a.toNat - b.toNat

/-- `strncmp`, which looks at the first `n` bytes at most. -/
def strncmp : List UInt8 → List UInt8 → Nat → Int
  | _, _, 0 => 0
  | [], [], _ + 1 => 0
  | [], b :: _, _ + 1 => -b.toNat
  | a :: _, [], _ + 1 => a.toNat
  | a :: s, b :: t, n + 1 =>
      if a = b then strncmp s t n else a.toNat - b.toNat

def isSpace (byte : UInt8) : Bool :=
  byte = 32 || (9 ≤ byte && byte ≤ 13)

def isDigit (byte : UInt8) : Bool := 48 ≤ byte && byte ≤ 57

/-- The number written by decimal digits, added to the digits before them. -/
def decimal (value : Nat) (digits : List UInt8) : Nat :=
  digits.foldl (fun value digit => 10 * value + (digit.toNat - 48)) value

/-- `atoi`, which is `strtol` with base 10: spaces, a sign, and the digits as far
as they go.  A `long` has 32 bits, and the largest and the smallest value stand
for all beyond them. -/
def atoi (s : List UInt8) : Int32 :=
  let s := s.dropWhile isSpace
  match s with
  | 45 :: s =>
      Int32.ofInt (max (-2 ^ 31) (-decimal 0 (s.takeWhile isDigit)))
  | 43 :: s =>
      Int32.ofInt (min (2 ^ 31 - 1) (decimal 0 (s.takeWhile isDigit)))
  | s => Int32.ofInt (min (2 ^ 31 - 1) (decimal 0 (s.takeWhile isDigit)))

/-- `strtoul` with base 10: the largest value stands for all that are larger, and
a sign is applied last. -/
def strtoul (s : List UInt8) : UInt32 :=
  let limit (value : Nat) : UInt32 := UInt32.ofNat (min value (UInt32.size - 1))
  let s := s.dropWhile isSpace
  match s with
  | 45 :: s =>
      let value := decimal 0 (s.takeWhile isDigit)
      if value < UInt32.size then -UInt32.ofNat value else limit value
  | 43 :: s => limit (decimal 0 (s.takeWhile isDigit))
  | s => limit (decimal 0 (s.takeWhile isDigit))

def hexDigitValue (byte : UInt8) : Option Nat :=
  if 48 ≤ byte ∧ byte ≤ 57 then some (byte.toNat - 48)
  else if 65 ≤ byte ∧ byte ≤ 70 then some (byte.toNat - 55)
  else if 97 ≤ byte ∧ byte ≤ 102 then some (byte.toNat - 87)
  else none

/-- The number written by hexadecimal digits as far as they go, added to the
digits before them. -/
def hexadecimal (value : Nat) : List UInt8 → Nat
  | [] => value
  | byte :: s =>
      match hexDigitValue byte with
      | some digit => hexadecimal (16 * value + digit) s
      | none => value

/-- `0x` or `0X`. -/
def skipHexMark : List UInt8 → List UInt8
  | 48 :: 120 :: s => s
  | 48 :: 88 :: s => s
  | s => s

/-- `strtol` with base 16, whose `long` has 32 bits: the largest and the smallest
value stand for all beyond them. -/
def strtolHex (s : List UInt8) : Int32 :=
  let s := s.dropWhile isSpace
  match s with
  | 45 :: s => Int32.ofInt (max (-2 ^ 31) (-hexadecimal 0 (skipHexMark s)))
  | 43 :: s => Int32.ofInt (min (2 ^ 31 - 1) (hexadecimal 0 (skipHexMark s)))
  | s => Int32.ofInt (min (2 ^ 31 - 1) (hexadecimal 0 (skipHexMark s)))

theorem sub_toNat_ne_zero {a b : UInt8} (apart : a ≠ b) :
    (a.toNat : Int) - b.toNat ≠ 0 := by
  intro same
  apply apart
  apply UInt8.toNat_inj.mp
  omega

theorem toNat_ne_zero {b : UInt8} (nonzero : b ≠ 0) : (b.toNat : Int) ≠ 0 := by
  have apart := sub_toNat_ne_zero nonzero
  simpa using apart

theorem strncmp_eq_zero_iff {s t : List UInt8} (n : Nat) (sNoNul : 0 ∉ s)
    (tNoNul : 0 ∉ t) : strncmp s t n = 0 ↔ s.take n = t.take n := by
  induction n generalizing s t with
  | zero => simp [strncmp]
  | succ n ih =>
      cases s with
      | nil =>
          cases t with
          | nil => simp [strncmp]
          | cons b t =>
              have nonzero : b ≠ 0 := fun zero =>
                tNoNul (zero ▸ List.mem_cons_self)
              have := toNat_ne_zero nonzero
              simpa [strncmp] using this
      | cons a s =>
          cases t with
          | nil =>
              have nonzero : a ≠ 0 := fun zero =>
                sNoNul (zero ▸ List.mem_cons_self)
              have := toNat_ne_zero nonzero
              simpa [strncmp] using this
          | cons b t =>
              have rest := ih (fun member => sNoNul (.tail _ member))
                fun member => tNoNul (.tail _ member)
              by_cases same : a = b
              · simp [strncmp, same, rest]
              · simpa [strncmp, same] using sub_toNat_ne_zero same

theorem strcmp_eq_zero_iff {s t : List UInt8} (sNoNul : 0 ∉ s)
    (tNoNul : 0 ∉ t) : strcmp s t = 0 ↔ s = t := by
  induction s generalizing t with
  | nil =>
      cases t with
      | nil => simp [strcmp]
      | cons b t =>
          have nonzero : b ≠ 0 := fun zero => tNoNul (zero ▸ List.mem_cons_self)
          have := toNat_ne_zero nonzero
          simpa [strcmp] using this
  | cons a s ih =>
      cases t with
      | nil =>
          have nonzero : a ≠ 0 := fun zero => sNoNul (zero ▸ List.mem_cons_self)
          have := toNat_ne_zero nonzero
          simpa [strcmp] using this
      | cons b t =>
          have rest := ih (fun member => sNoNul (.tail _ member))
            fun member => tNoNul (.tail _ member)
          by_cases same : a = b
          · simp [strcmp, same, rest]
          · simpa [strcmp, same] using sub_toNat_ne_zero same

/-- A comparison that does not reach the terminator of the second string accepts
every string that begins with it. -/
theorem strncmp_length_iff {s t : List UInt8} (sNoNul : 0 ∉ s)
    (tNoNul : 0 ∉ t) : strncmp s t t.length = 0 ↔ t <+: s := by
  rw [strncmp_eq_zero_iff _ sNoNul tNoNul, List.take_length,
    List.prefix_iff_eq_take]
  exact eq_comm

/-- A comparison that reaches the terminator accepts the string itself only. -/
theorem strncmp_terminated_iff {s t : List UInt8} {n : Nat} (sNoNul : 0 ∉ s)
    (tNoNul : 0 ∉ t) (terminated : t.length < n) :
    strncmp s t n = 0 ↔ s = t := by
  rw [strncmp_eq_zero_iff _ sNoNul tNoNul,
    List.take_of_length_le (Nat.le_of_lt terminated)]
  constructor
  · intro same
    have short : s.length < n := by
      have lengths := congrArg List.length same
      rw [List.length_take] at lengths
      omega
    rwa [List.take_of_length_le (Nat.le_of_lt short)] at same
  · rintro rfl
    exact List.take_of_length_le (Nat.le_of_lt terminated)

end CStrings

end SzpiSta
