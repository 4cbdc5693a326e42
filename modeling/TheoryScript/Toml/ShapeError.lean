/-
What is wrong with the shape of a document.

A text may be a TOML document and still not describe what is wanted of it.  An error
tells what was found where something else was wanted, or which keys are missing, unknown
or too many.
-/
import TheoryScript.Decimal.Positional
import TheoryScript.Text.Quoted
import TheoryScript.Toml.Value

namespace TheoryScript.Toml

/-! ### Found and wanted -/

/-- What was found, as far as a message tells. -/
inductive Found where
  /-- An integer. -/
  | integer (value : Int64)
  /-- A float. -/
  | float (value : Decimal.Binary64)
  /-- A truth value. -/
  | boolean (value : Bool)
  /-- A string. -/
  | string (text : String)
  /-- An array. -/
  | sequence
  /-- A table, or a date, which counts as one. -/
  | map
  deriving DecidableEq, Repr

/-- What a value is found to be. -/
def Value.found : Value → Found
  | .string text => .string text
  | .integer value => .integer value
  | .float value => .float value
  | .boolean value => .boolean value
  | .dateTime _ _ => .map
  | .array _ _ => .sequence
  | .table _ => .map

/-- The wording of what was found. -/
def Found.text : Found → String
  | integer value => "integer `" ++ toString value.toInt ++ "`"
  | float value => "floating point `" ++ value.text ++ "`"
  | boolean value => "boolean `" ++ (if value then "true" else "false") ++ "`"
  | string text => "string " ++ Text.quoted text
  | sequence => "sequence"
  | map => "map"

/-- A record that a document describes, with the names of its fields in order. -/
structure RecordShape where
  /-- The name of the record. -/
  name : String
  /-- The names of its fields. -/
  fields : List String
  deriving DecidableEq, Repr

/-- The wording of a record. -/
def RecordShape.text (r : RecordShape) : String :=
  "struct " ++ r.name

/-- The wording of a record as an array of its fields. -/
def RecordShape.lengthText (r : RecordShape) : String :=
  r.text ++ " with " ++ toString r.fields.length ++
    (if r.fields.length = 1 then " element" else " elements")

/-- What was wanted. -/
inductive Wanted where
  /-- A string. -/
  | string
  /-- A truth value. -/
  | boolean
  /-- An array. -/
  | sequence
  /-- A record. -/
  | record (r : RecordShape)
  deriving DecidableEq, Repr

/-- The wording of what was wanted. -/
def Wanted.text : Wanted → String
  | string => "a string"
  | boolean => "a boolean"
  | sequence => "a sequence"
  | record r => r.text

/-! ### Errors -/

/-- What is wrong with the shape of a document. -/
inductive ShapeError where
  /-- A table has a key that it must not have. -/
  | unknownField (name : String) (known : List String)
  /-- A table lacks a key. -/
  | missingField (name : String)
  /-- A value is not of the wanted type. -/
  | wrongType (found : Found) (wanted : Wanted)
  /-- An array of fields ends too soon. -/
  | tooShort (length : Nat) (r : RecordShape)
  /-- A choice is none of the known ones. -/
  | unknownChoice (name : String) (known : List String)
  /-- A choice that carries a value is named without one. -/
  | bareChoice
  /-- A choice stands in a table without keys. -/
  | noChoice
  /-- A choice stands in a table with several keys. -/
  | severalChoices
  /-- A choice is neither a string nor a table. -/
  | notAChoice
  /-- A choice that carries nothing stands before a table that is not empty. -/
  | filledChoice
  /-- A choice that carries nothing stands before a value of another kind. -/
  | choiceNotTable (kind : String)
  /-- A constant is neither an integer nor a string. -/
  | notAConstant
  deriving DecidableEq, Repr

/-- Names in backticks, as the names that were expected. -/
def expectedNames (names : List String) : String :=
  match names.map fun name => "`" ++ name ++ "`" with
  | [] => "nothing"
  | [one] => one
  | [one, two] => one ++ " or " ++ two
  | several => "one of " ++ ", ".intercalate several

/-- The wording of an error. -/
def ShapeError.message : ShapeError → String
  | unknownField name known => "unknown field `" ++ name ++ "`, expected " ++ expectedNames known
  | missingField name => "missing field `" ++ name ++ "`"
  | wrongType found wanted => "invalid type: " ++ found.text ++ ", expected " ++ wanted.text
  | tooShort length r => "invalid length " ++ toString length ++ ", expected " ++ r.lengthText
  | unknownChoice name known =>
      "unknown variant `" ++ name ++ "`, expected " ++ expectedNames known
  | bareChoice => "invalid type: unit variant, expected newtype variant"
  | noChoice => "wanted exactly 1 element, found 0 elements"
  | severalChoices => "wanted exactly 1 element, more than 1 element"
  | notAChoice => "wanted string or table"
  | filledChoice => "expected empty table"
  | choiceNotTable kind => "expected table, found " ++ kind
  | notAConstant => "data did not match any variant of untagged enum Constant"

/-- Why a text gives no result: it is no document, or the document has another shape. -/
inductive ReadError where
  /-- The text is no TOML document. -/
  | invalidDocument
  /-- The document does not describe what is wanted. -/
  | shape (error : ShapeError)
  deriving DecidableEq, Repr

/-- The wording of why a text gives no result, without the place in the text. -/
def ReadError.message : ReadError → String
  | invalidDocument => "not a document"
  | shape error => error.message

/--
Why a table gives no result.  A date that does not exist does no harm where it is ignored,
but in a document that is refused it is what the document is refused for.
-/
def ReadError.ofTable (table : Table) (error : ShapeError) : ReadError :=
  if Table.datesExist table then .shape error else .invalidDocument

/-! ### Plain values -/

/-- The text of a string. -/
def Value.asString : Value → Except ShapeError String
  | .string text => .ok text
  | v => .error (.wrongType v.found .string)

/-- A truth value. -/
def Value.asBoolean : Value → Except ShapeError Bool
  | .boolean value => .ok value
  | v => .error (.wrongType v.found .boolean)

/-- The items of an array. -/
def Value.asItems : Value → Except ShapeError (List Value)
  | .array _ items => .ok items
  | v => .error (.wrongType v.found .sequence)

/-- A field that must be there. -/
def required {α : Type} (name : String) : Option α → Except ShapeError α
  | some a => .ok a
  | none => .error (.missingField name)

end TheoryScript.Toml
