/-
The shortest decimal of a binary number.

The reals that round to a binary number form an interval around it, whose ends belong to
it exactly when the mantissa is even.  Among the decimals in that interval, one with the
fewest digits is wanted, and of those the nearest.  On the grid of decimals with a given
number of digits it is enough to try the two neighbours of the number: if any point of
the grid lies in the interval, so does one of them.
-/
import TheoryScript.Decimal.Binary64

namespace TheoryScript.Decimal

/-- The decimal `digits * 10 ^ exponent`. -/
structure ShortDecimal where
  /-- The digits, as a number. -/
  digits : Nat
  /-- The power of ten. -/
  exponent : Int
  deriving DecidableEq, Repr

/-! ### The interval of a number -/

/--
The reals that round to a number, in units that make its ends and itself whole: they lie
from `low / unit` to `high / unit` around `mid / unit`.
-/
structure RoundingInterval where
  /-- The lower end. -/
  low : Nat
  /-- The number itself. -/
  mid : Nat
  /-- The upper end. -/
  high : Nat
  /-- How many units make one. -/
  unit : Nat
  /-- Whether the ends round to the number too. -/
  closed : Bool

/-- The interval of `mantissa * 2 ^ exponent`.  Below a power of two the spacing is half as wide. -/
def RoundingInterval.ofFinite (mantissa : Nat) (exponent : Int) : RoundingInterval :=
  let smallest := mantissa = Nat.pow 2 (Binary64.precision - 1)
  let narrowBelow := smallest && Binary64.minExponent < exponent
  let factor := Nat.pow 2 (exponent - 2).toNat
  { low := (4 * mantissa - if narrowBelow then 1 else 2) * factor
    mid := 4 * mantissa * factor
    high := (4 * mantissa + 2) * factor
    unit := Nat.pow 2 (2 - exponent).toNat
    closed := mantissa % 2 = 0 }

/-- Whether the fraction `num / den` lies in an interval. -/
def RoundingInterval.contains (i : RoundingInterval) (num den : Nat) : Bool :=
  let value := num * i.unit
  if i.closed then i.low * den ≤ value && value ≤ i.high * den
  else i.low * den < value && value < i.high * den

/-! ### The search -/

/-- The least power of ten, by exponent, above the positive fraction `num / den`. -/
def ceilLog10 (num den : Nat) : Int :=
  let estimate : Int := ((Nat.toDigits 10 num).length : Int) - (Nat.toDigits 10 den).length
  let scaled := Binary64.scale 10 (-estimate) num den
  if scaled.1 < scaled.2 then estimate else estimate + 1

/-- The decimal on the grid `10 ^ exponent` that is in the interval and nearest to the number. -/
def onGrid? (i : RoundingInterval) (exponent : Int) : Option ShortDecimal :=
  let scaled := Binary64.scale 10 (-exponent) i.mid i.unit
  let below := scaled.1 / scaled.2
  let inside (digits : Nat) : Bool :=
    let point := Binary64.scale 10 exponent digits 1
    0 < digits && i.contains point.1 point.2
  let aboveIsNearer := scaled.2 ≤ 2 * (scaled.1 % scaled.2)
  match inside below, inside (below + 1) with
  | true, true => some ⟨if aboveIsNearer then below + 1 else below, exponent⟩
  | true, false => some ⟨below, exponent⟩
  | false, true => some ⟨below + 1, exponent⟩
  | false, false => none

/-- Try one digit, then one more, up to the given number of further digits. -/
def firstOnGrid (i : RoundingInterval) (exponent : Int) : Nat → Option ShortDecimal
  | 0 => onGrid? i exponent
  | more + 1 =>
      match onGrid? i exponent with
      | some found => some found
      | none => firstOnGrid i (exponent - 1) more

/-- Seventeen digits tell all finite numbers apart. -/
def maxDigits : Nat := 17

/-- The shortest decimal that rounds to `mantissa * 2 ^ exponent`, the nearest of the shortest. -/
def shortest (mantissa : Nat) (exponent : Int) : ShortDecimal :=
  if mantissa = 0 then ⟨0, 0⟩
  else
    let interval := RoundingInterval.ofFinite mantissa exponent
    let top := ceilLog10 interval.mid interval.unit
    (firstOnGrid interval (top - 1) (maxDigits - 1)).getD ⟨0, 0⟩

end TheoryScript.Decimal
