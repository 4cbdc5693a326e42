/-
Binary numbers as decimal text.

A number is written with the shortest digits that read back as the same number, always
in positional notation and always with a decimal point: whole numbers end in `.0`.
-/
import TheoryScript.Decimal.Shortest

namespace TheoryScript.Decimal

/-- Drop the zeros at the end of a positive decimal's digits. -/
def ShortDecimal.stripZeros (d : ShortDecimal) : ShortDecimal :=
  let digits := Nat.toDigits 10 d.digits
  let zeros := (digits.reverse.takeWhile (· == '0')).length
  if d.digits = 0 then ⟨0, 0⟩ else ⟨d.digits / Nat.pow 10 zeros, d.exponent + zeros⟩

/-- A decimal in positional notation, with at least one digit on either side of the point. -/
def ShortDecimal.positional (d : ShortDecimal) : String :=
  let stripped := d.stripZeros
  let digits := Nat.toDigits 10 stripped.digits
  if 0 ≤ stripped.exponent then
    String.ofList (digits ++ List.replicate stripped.exponent.toNat '0') ++ ".0"
  else
    let places := (-stripped.exponent).toNat
    let padded := List.replicate (places + 1 - digits.length) '0' ++ digits
    let whole := padded.length - places
    String.ofList (padded.take whole) ++ "." ++ String.ofList (padded.drop whole)

/-- The text of a number. -/
def Binary64.text : Binary64 → String
  | nan => "NaN"
  | infinite negative => if negative then "-inf" else "inf"
  | finite negative mantissa exponent =>
      (if negative then "-" else "") ++ (shortest mantissa exponent).positional

end TheoryScript.Decimal
