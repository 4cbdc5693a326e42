/-
Dates and times.

A date may stand alone, or before a time that a letter or a blank sets off and that may
have an offset; a time may also stand alone.  The parts of a date are within the range
of their unit, each on its own: as far as reading goes, any month may have thirty-one days.
-/
import TheoryScript.Toml.Number

namespace TheoryScript.Toml

/-- A number of exactly `count` decimal digits within a range, both ends included. -/
def fixedNumber (count low high : Nat) : Scan Nat := do
  let digits ← hexDigits count
  let value := ofDigits 10 digits
  if digits.all (· < 10) && low ≤ value && value ≤ high then return value else failure

/-- A year, a month and a day. -/
def date : Scan Date := do
  let year ← fixedNumber 4 0 9999
  Scan.char '-'
  let month ← fixedNumber 2 1 12
  Scan.char '-'
  let day ← fixedNumber 2 1 31
  return { year, month, day }

/-- An hour and a minute. -/
def hourMinute : Scan Unit := do
  let _ ← fixedNumber 2 0 23
  Scan.char ':'
  let _ ← fixedNumber 2 0 59

/-- A time of day; a leap second and a fraction of a second are fine. -/
def time : Scan Unit := do
  hourMinute
  Scan.char ':'
  let _ ← fixedNumber 2 0 60
  let _ ← Scan.maybe (Scan.char '.' *> Scan.run1 Char.isDigit)

/-- The offset of a time from the universal one. -/
def offset : Scan Unit :=
  Scan.char 'Z' <|> Scan.char 'z' <|> ((Scan.char '+' <|> Scan.char '-') *> hourMinute)

/-- A time behind the mark that sets it off from a date. -/
def timeAfterDate : Scan Unit := do
  Scan.char 'T' <|> Scan.char 't' <|> Scan.char ' '
  time
  let _ ← Scan.maybe offset

/-- A date with or without a time, or a time. -/
def dateTime : Scan Value :=
  let dated : Scan (Option Date) := some <$> (date <* Scan.maybe timeAfterDate)
  let undated : Scan (Option Date) := (fun _ => none) <$> time
  (fun (text, found) => Value.dateTime (String.ofList text) found) <$> Scan.taken (dated <|> undated)

end TheoryScript.Toml
