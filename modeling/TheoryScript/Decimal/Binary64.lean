/-
Decimals rounded to binary floating point.

A finite number of the 64-bit format is a mantissa below 2^53 times a power of two.  A
decimal is rounded to the nearest such number in exact integer arithmetic, and of two
equally near ones to the one with the even mantissa.  Decimals far outside the range of
the format are decided by their size alone, so a huge exponent costs nothing.
-/
namespace TheoryScript.Decimal

/-- A number of the 64-bit binary format. -/
inductive Binary64 where
  /-- Not a number. -/
  | nan
  /-- Beyond every finite number, with a sign. -/
  | infinite (negative : Bool)
  /-- `mantissa * 2 ^ exponent`, with a sign that zero has too. -/
  | finite (negative : Bool) (mantissa : Nat) (exponent : Int)
  deriving DecidableEq, Repr

namespace Binary64

/-- The number of bits of a full mantissa. -/
def precision : Nat := 53

/-- The least exponent of a finite number. -/
def minExponent : Int := -1074

/-- The greatest exponent of a finite number with a full mantissa. -/
def maxExponent : Int := 971

/-! ### Exact scaling -/

/-- The fraction `num / den` times `base ^ power`, again as a fraction. -/
def scale (base : Nat) (power : Int) (num den : Nat) : Nat × Nat :=
  if 0 ≤ power then (num * Nat.pow base power.toNat, den)
  else (num, den * Nat.pow base (-power).toNat)

/-- The integer nearest to `num / den`, the even one of two equally near. -/
def roundHalfEven (num den : Nat) : Nat :=
  let whole := num / den
  let twice := 2 * (num % den)
  if den < twice || (twice = den && whole % 2 = 1) then whole + 1 else whole

/-- The greatest power of two, by exponent, that is at most the positive fraction `num / den`. -/
def floorLog2 (num den : Nat) : Int :=
  let estimate : Int := (Nat.log2 num : Int) - Nat.log2 den
  let scaled := scale 2 (-estimate) num den
  if scaled.1 < scaled.2 then estimate - 1 else estimate

/-! ### Rounding -/

/-- The number nearest to the positive fraction `num / den`. -/
def ofFraction (negative : Bool) (num den : Nat) : Binary64 :=
  let exponent := max minExponent (floorLog2 num den - (precision - 1 : Nat))
  let scaled := scale 2 (-exponent) num den
  let mantissa := roundHalfEven scaled.1 scaled.2
  -- rounding up may carry into a bit more than a mantissa has
  let carried := mantissa = Nat.pow 2 precision
  let exponent := if carried then exponent + 1 else exponent
  let mantissa := if carried then mantissa / 2 else mantissa
  if maxExponent < exponent then infinite negative else finite negative mantissa exponent

/-- The greatest decimal exponent of a finite number is 308. -/
def maxDecimalExponent : Int := 310

/-- A positive decimal below this power of ten rounds to zero. -/
def minDecimalExponent : Int := -330

/-- The number nearest to `digits * 10 ^ exponent`. -/
def ofDecimal (negative : Bool) (digits : Nat) (exponent : Int) : Binary64 :=
  if digits = 0 then finite negative 0 minExponent
  else
    let size := exponent + (Nat.toDigits 10 digits).length
    if maxDecimalExponent < size then infinite negative
    else if size < minDecimalExponent then finite negative 0 minExponent
    else
      let scaled := scale 10 exponent digits 1
      ofFraction negative scaled.1 scaled.2

end Binary64

end TheoryScript.Decimal
