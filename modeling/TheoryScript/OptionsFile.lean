/-
Options files.

An options file is a TOML document whose keys are options.  Every option has a default,
so every key may be left out; a key that is no option is an error.
-/
import TheoryScript.Options
import TheoryScript.Toml.Document
import TheoryScript.Toml.ShapeError

namespace TheoryScript.OptionsFile

open Toml

/-- The keys of an options file. -/
def fileKeys : List String := ["logic", "emit_preamble", "fail_on_error", "verbosity_level"]

/-- The names of all verbosities. -/
def verbosityNames : List String := Verbosity.all.map Verbosity.name

/-- What a value is when it is no table. -/
def kindName : Value → String
  | .string _ => "string"
  | .integer _ => "integer"
  | .float _ => "float"
  | .boolean _ => "boolean"
  | .dateTime _ _ => "datetime"
  | .array .bracketed _ => "array"
  | .array .headed _ => "array of tables"
  | .table _ => "table"

/-- The verbosity of a name. -/
def verbosityOfName (name : String) : Except ShapeError Verbosity :=
  match Verbosity.ofName? name with
  | some verbosity => .ok verbosity
  | none => .error (.unknownChoice name verbosityNames)

/-- A verbosity is a name, or a table with the name as its key before an empty table. -/
def verbosity : Value → Except ShapeError Verbosity
  | .string name => verbosityOfName name
  | .table [] => .error .noChoice
  | .table [(name, v)] => do
      let found ← verbosityOfName name
      match v with
      | .table [] => return found
      | .table (_ :: _) => .error .filledChoice
      | other => .error (.choiceNotTable (kindName other))
  | .table (_ :: _ :: _) => .error .severalChoices
  | _ => .error .notAChoice

/-- Take in one key. -/
def add (options : Options) (entry : String × Value) : Except ShapeError Options := do
  let (key, v) := entry
  if key = "logic" then return { options with logic := ← v.asString }
  else if key = "emit_preamble" then return { options with emitPreamble := ← v.asBoolean }
  else if key = "fail_on_error" then return { options with failOnError := ← v.asBoolean }
  else if key = "verbosity_level" then return { options with verbosity := ← verbosity v }
  else .error (.unknownField key fileKeys)

/-- The options of a document: the defaults, changed by its keys. -/
def ofTable (table : Table) : Except ShapeError Options :=
  table.foldlM add {}

/-- The options of a file. -/
def read (text : String) : Except ReadError Options :=
  match parse? text with
  | none => .error .invalidDocument
  | some table => (ofTable table).mapError (.ofTable table)

end TheoryScript.OptionsFile
