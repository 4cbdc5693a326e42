/-
Numbers.

Decimal integers may have a sign and no needless zero in front; hexadecimal, octal and
binary ones have a mark in front and no sign.  Single underscores may stand between
digits.  An integer that does not fit in 64 bits is no number at all, and neither is a
float that is rounded up to infinity; the infinities have names of their own.
-/
import TheoryScript.Toml.Quoted
import TheoryScript.Toml.Value

namespace TheoryScript.Toml

/-! ### Digits -/

/-- The number that hexadecimal digits stand for in a base. -/
def digitsValue (base : Nat) (digits : List Char) : Nat :=
  ofDigits base (digits.filterMap hexDigit?)

/-- A digit of a base up to sixteen. -/
def isDigitOf (base : Nat) (c : Char) : Bool :=
  (hexDigit? c).any (· < base)

/-- A sign, if there is one: whether the number is negative. -/
def sign : Scan Bool :=
  ((fun _ => true) <$> Scan.char '-') <|> ((fun _ => false) <$> Scan.char '+') <|> pure false

/-- The digits of a decimal integer: a zero alone, or digits that start with none. -/
def wholeDigits : Scan (List Char) := do
  match ← Scan.peek? with
  | some '0' => (fun c => [c]) <$> Scan.satisfy (· == '0')
  | _ => Scan.digits1 Char.isDigit

/-! ### Integers -/

/-- An integer as a value, if it fits in 64 bits. -/
def integerValue (value : Int) : Scan Value :=
  if Int64.minValue.toInt ≤ value && value ≤ Int64.maxValue.toInt then
    return .integer (Int64.ofInt value)
  else failure

/-- An unsigned integer behind the mark of its base. -/
def markedInteger (mark : Char) (base : Nat) : Scan Value := do
  Scan.exact ['0', mark]
  integerValue (digitsValue base (← Scan.digits1 (isDigitOf base)))

/-- A decimal integer. -/
def decimalInteger : Scan Value := do
  let negative ← sign
  let magnitude := digitsValue 10 (← wholeDigits)
  integerValue (if negative then -(magnitude : Int) else magnitude)

/-- An integer in any base. -/
def integer : Scan Value :=
  markedInteger 'x' 16 <|> markedInteger 'o' 8 <|> markedInteger 'b' 2 <|> decimalInteger

/-! ### Floats -/

/-- The digits after a decimal point. -/
def fractionDigits : Scan (List Char) :=
  Scan.char '.' *> Scan.digits1 Char.isDigit

/-- A power of ten. -/
def exponent : Scan Int := do
  Scan.char 'e' <|> Scan.char 'E'
  let negative ← sign
  let magnitude := digitsValue 10 (← Scan.digits1 Char.isDigit)
  return if negative then -(magnitude : Int) else magnitude

/-- A float in digits: a fraction, a power of ten, or both follow its whole part. -/
def digitFloat : Scan Decimal.Binary64 := do
  let negative ← sign
  let whole ← wholeDigits
  let fraction ← Scan.maybe fractionDigits
  let power ← Scan.maybe exponent
  if fraction.isNone && power.isNone then failure
  let places := fraction.getD []
  let value := Decimal.Binary64.ofDecimal negative (digitsValue 10 (whole ++ places))
    (power.getD 0 - places.length)
  if value = .infinite false then failure
  return value

/-- An infinity or no number, by name. -/
def namedFloat : Scan Decimal.Binary64 := do
  let negative ← sign
  ((fun _ => Decimal.Binary64.infinite negative) <$> Scan.exact ['i', 'n', 'f']) <|>
    ((fun _ => Decimal.Binary64.nan) <$> Scan.exact ['n', 'a', 'n'])

/-- A float. -/
def float : Scan Value :=
  Value.float <$> (digitFloat <|> namedFloat)

end TheoryScript.Toml
