import Mathlib.Data.List.Basic

/-!
# Bytes as hexadecimal text

Every byte is written as two lower-case digits, the high half first.  Reading
the digits back gives the bytes, so different bytes have different texts.
-/

namespace SzpiSta

namespace HexText

/-- The ASCII code of the digit for `value`, below 16. -/
def hexDigit (value : UInt8) : UInt8 :=
  if value < 10 then 48 + value else 87 + value

/-- `%02x` of one byte. -/
def hexPair (byte : UInt8) : List UInt8 :=
  [hexDigit (byte / 16), hexDigit (byte % 16)]

def hexText (bytes : List UInt8) : List UInt8 :=
  bytes.flatMap hexPair

def digitValue (digit : UInt8) : Option UInt8 :=
  if 48 ≤ digit ∧ digit < 58 then some (digit - 48)
  else if 97 ≤ digit ∧ digit < 103 then some (digit - 87)
  else none

def decodeHex : List UInt8 → Option (List UInt8)
  | [] => some []
  | [_] => none
  | high :: low :: text => do
      let highValue ← digitValue high
      let lowValue ← digitValue low
      let bytes ← decodeHex text
      return (16 * highValue + lowValue) :: bytes

theorem digitValue_hexDigit {value : UInt8} (small : value < 16) :
    digitValue (hexDigit value) = some value := by
  have everyDigit : ∀ value : Fin 16,
      digitValue (hexDigit (UInt8.ofNat value)) = some (UInt8.ofNat value) := by
    decide
  have bound : value.toNat < 16 := UInt8.lt_iff_toNat_lt.mp small
  simpa using everyDigit ⟨value.toNat, bound⟩

theorem byte_halves (byte : UInt8) : 16 * (byte / 16) + byte % 16 = byte := by
  apply UInt8.toNat_inj.mp
  have := byte.toNat_lt
  rw [UInt8.toNat_add, UInt8.toNat_mul, UInt8.toNat_div, UInt8.toNat_mod]
  simp only [UInt8.toNat_ofNat, Nat.reducePow, Nat.reduceMod]
  omega

@[simp]
theorem decodeHex_hexText (bytes : List UInt8) :
    decodeHex (hexText bytes) = some bytes := by
  induction bytes with
  | nil => rfl
  | cons byte bytes ih =>
      have high : byte / 16 < 16 := by
        have := byte.toNat_lt
        rw [UInt8.lt_iff_toNat_lt, UInt8.toNat_div]
        simp only [UInt8.toNat_ofNat, Nat.reducePow, Nat.reduceMod]
        omega
      have low : byte % 16 < 16 := by
        rw [UInt8.lt_iff_toNat_lt, UInt8.toNat_mod]
        simp only [UInt8.toNat_ofNat, Nat.reducePow, Nat.reduceMod]
        omega
      have unfolded : decodeHex (hexText (byte :: bytes)) = (do
          let highValue ← digitValue (hexDigit (byte / 16))
          let lowValue ← digitValue (hexDigit (byte % 16))
          let rest ← decodeHex (hexText bytes)
          return (16 * highValue + lowValue) :: rest) := rfl
      rw [unfolded, digitValue_hexDigit high, digitValue_hexDigit low, ih]
      simp [byte_halves]

theorem hexText_length (bytes : List UInt8) :
    (hexText bytes).length = 2 * bytes.length := by
  induction bytes with
  | nil => rfl
  | cons byte bytes ih =>
      have unfolded : hexText (byte :: bytes) =
          hexPair byte ++ hexText bytes := rfl
      rw [unfolded, List.length_append, ih, List.length_cons, hexPair,
        List.length_cons, List.length_singleton]
      omega

theorem hexText_injective : Function.Injective hexText := by
  intro first second same
  have decoded := congrArg decodeHex same
  simpa using decoded

end HexText

end SzpiSta
