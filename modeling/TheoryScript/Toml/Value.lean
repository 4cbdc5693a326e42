/-
TOML values.

A document is a table, and a table keeps its keys in the order in which they were
written.  Arrays remember whether they were written between brackets or as a sequence of
headed tables, which some messages about a value tell apart; nothing else about the
spelling of a value is kept.
-/
import TheoryScript.Decimal.Binary64
import TheoryScript.Toml.Calendar
import TheoryScript.Toml.Entries

namespace TheoryScript.Toml

/-- How an array was written. -/
inductive ArrayStyle where
  /-- Between brackets. -/
  | bracketed
  /-- As tables under `[[headers]]`. -/
  | headed
  deriving DecidableEq, Repr

/-- A TOML value. -/
inductive Value where
  /-- A text. -/
  | string (text : String)
  /-- An integer of 64 bits. -/
  | integer (value : Int64)
  /-- A binary floating-point number. -/
  | float (value : Decimal.Binary64)
  /-- A truth value. -/
  | boolean (value : Bool)
  /-- A date, a time, or both, as it was written, and the date among it. -/
  | dateTime (text : String) (date : Option Date)
  /-- A sequence of values. -/
  | array (style : ArrayStyle) (items : List Value)
  /-- Keys with their values, in written order. -/
  | table (entries : List (String × Value))
  deriving Repr

/-- The keys of a table with their values, in written order. -/
abbrev Table := Entries Value

/-! ### Dates -/

mutual

/-- Whether every date in a value exists. -/
def Value.datesExist : Value → Bool
  | .dateTime _ date => date.all Date.isOnCalendar
  | .array _ items => Value.allDatesExist items
  | .table entries => Table.datesExist entries
  | .string _ => true
  | .integer _ => true
  | .float _ => true
  | .boolean _ => true

/-- Whether every date in several values exists. -/
def Value.allDatesExist : List Value → Bool
  | [] => true
  | v :: rest => v.datesExist && Value.allDatesExist rest

/-- Whether every date in a table exists. -/
def Table.datesExist : List (String × Value) → Bool
  | [] => true
  | (_, v) :: rest => v.datesExist && Table.datesExist rest

end

end TheoryScript.Toml
