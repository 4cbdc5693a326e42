/-
Statement files.

A statement file is a TOML document with one table for each statement under the key
`statement`.  Records may be tables, whose unknown keys are ignored, or arrays of their
fields in order, whose further entries are ignored.  The keys of a table are decoded in
written order and the first problem is reported; only then are missing keys.
-/
import TheoryScript.Statement
import TheoryScript.Toml.Document
import TheoryScript.Toml.ShapeError

namespace TheoryScript.StatementFile

open Toml

/-! ### Records -/

/-- The shape of an operation with its operands; the operands may be left out. -/
def applicationShape : RecordShape := ⟨"ExpressionTerm", ["operation", "children"]⟩

/-- The shape of an element. -/
def elementShape : RecordShape := ⟨"Element", ["terms"]⟩

/-- The shape of a statement. -/
def statementShape : RecordShape :=
  ⟨"TheoryStatement", ["atom", "tag", "elements", "operation", "right"]⟩

/-- The choices for a term. -/
def termChoices : List String := ["Symbolic", "Expression", "Literal"]

/-! ### Terms -/

/-- A constant is an integer or a string. -/
def constant : Value → Except ShapeError Constant
  | .integer value => .ok (.int value)
  | .string text => .ok (.name text)
  | _ => .error .notAConstant

/-- The fields of an operation that were seen so far. -/
structure ApplicationFields where
  /-- The operation. -/
  operation : Option String := none
  /-- Its operands. -/
  children : Option (List Term) := none

/-- An operation from its fields; operands that were left out are none. -/
def ApplicationFields.toTerm (fields : ApplicationFields) : Except ShapeError Term := do
  let operation ← required "operation" fields.operation
  return .app operation (fields.children.getD [])

mutual

/-- A term is a table whose one key says what it is. -/
def term : Value → Except ShapeError Term
  | .table [] => .error .noChoice
  | .table [(choice, v)] =>
      if choice = "Symbolic" then Term.var <$> v.asString
      else if choice = "Expression" then application v
      else if choice = "Literal" then Term.const <$> constant v
      else .error (.unknownChoice choice termChoices)
  | .table (_ :: _ :: _) => .error .severalChoices
  | .string choice =>
      .error (if termChoices.contains choice then .bareChoice else .unknownChoice choice termChoices)
  | _ => .error .notAChoice

/-- An operation with its operands. -/
def application : Value → Except ShapeError Term
  | .table entries => do (← applicationFields {} entries).toTerm
  | .array _ [] => .error (.tooShort 0 applicationShape)
  | .array _ [operation] => return .app (← operation.asString) []
  | .array _ (operation :: children :: _) => do
      let operation ← operation.asString
      return .app operation (← termSequence children)
  | .dateTime _ _ => .error (.missingField "operation")
  | v => .error (.wrongType v.found (.record applicationShape))

/-- The fields of an operation, in written order. -/
def applicationFields (fields : ApplicationFields) :
    List (String × Value) → Except ShapeError ApplicationFields
  | [] => .ok fields
  | (key, v) :: rest => do
      if key = "operation" then
        let operation ← v.asString
        applicationFields { fields with operation := some operation } rest
      else if key = "children" then
        let children ← termSequence v
        applicationFields { fields with children := some children } rest
      else applicationFields fields rest

/-- An array of terms. -/
def termSequence : Value → Except ShapeError (List Term)
  | .array _ items => terms items
  | v => .error (.wrongType v.found .sequence)

/-- Several terms, in order. -/
def terms : List Value → Except ShapeError (List Term)
  | [] => .ok []
  | v :: rest => do
      let first ← term v
      return first :: (← terms rest)

end

/-! ### Elements and statements -/

/-- The terms of an element, from its fields in written order. -/
def elementFields (found : Option (List Term)) :
    List (String × Value) → Except ShapeError (Option (List Term))
  | [] => .ok found
  | (key, v) :: rest => do
      if key = "terms" then elementFields (some (← termSequence v)) rest
      else elementFields found rest

/-- An element. -/
def element : Value → Except ShapeError Element
  | .table entries => do return ⟨← required "terms" (← elementFields none entries)⟩
  | .array _ [] => .error (.tooShort 0 elementShape)
  | .array _ (items :: _) => do return ⟨← termSequence items⟩
  | .dateTime _ _ => .error (.missingField "terms")
  | v => .error (.wrongType v.found (.record elementShape))

/-- An array of elements. -/
def elements (v : Value) : Except ShapeError (List Element) := do
  (← v.asItems).mapM element

/-- The fields of a statement that were seen so far. -/
structure StatementFields where
  /-- The name of the atom. -/
  atom : Option String := none
  /-- The kind of statement. -/
  category : Option String := none
  /-- The left-hand side. -/
  elements : Option (List Element) := none
  /-- The relation between the sides. -/
  relation : Option String := none
  /-- The right-hand side. -/
  right : Option Term := none

/-- Take in one key of a statement; a key that no statement has is ignored. -/
def StatementFields.add (fields : StatementFields) (entry : String × Value) :
    Except ShapeError StatementFields := do
  let (key, v) := entry
  if key = "atom" then return { fields with atom := some (← v.asString) }
  else if key = "tag" then return { fields with category := some (← v.asString) }
  else if key = "elements" then return { fields with elements := some (← StatementFile.elements v) }
  else if key = "operation" then return { fields with relation := some (← v.asString) }
  else if key = "right" then return { fields with right := some (← term v) }
  else return fields

/-- A statement from its fields, all of which must be there. -/
def StatementFields.toStatement (fields : StatementFields) : Except ShapeError Statement := do
  return {
    atom := ← required "atom" fields.atom
    category := ← required "tag" fields.category
    elements := ← required "elements" fields.elements
    relation := ← required "operation" fields.relation
    right := ← required "right" fields.right }

/-- The entry of an array of fields at a place. -/
def fieldAt (items : List Value) (place : Nat) : Except ShapeError Value :=
  match items[place]? with
  | some v => .ok v
  | none => .error (.tooShort place statementShape)

/-- A statement from an array of its fields. -/
def statementOfItems (items : List Value) : Except ShapeError Statement := do
  return {
    atom := ← (← fieldAt items 0).asString
    category := ← (← fieldAt items 1).asString
    elements := ← elements (← fieldAt items 2)
    relation := ← (← fieldAt items 3).asString
    right := ← term (← fieldAt items 4) }

/-- A statement. -/
def statement : Value → Except ShapeError Statement
  | .table entries => do (← entries.foldlM StatementFields.add {}).toStatement
  | .array _ items => statementOfItems items
  | .dateTime _ _ => .error (.missingField "atom")
  | v => .error (.wrongType v.found (.record statementShape))

/-! ### Files -/

/-- The keys of a statement file. -/
def fileKeys : List String := ["statement"]

/-- Take in one key of a file, in place of the statements found so far. -/
def addKey (_ : List Statement) (entry : String × Value) : Except ShapeError (List Statement) := do
  let (key, v) := entry
  if key = "statement" then (← v.asItems).mapM statement
  else .error (.unknownField key fileKeys)

/-- The statements of a document; a file without the key has none. -/
def ofTable (table : Table) : Except ShapeError (List Statement) :=
  table.foldlM addKey []

/-- The statements of a file. -/
def read (text : String) : Except ReadError (List Statement) :=
  match parse? text with
  | none => .error .invalidDocument
  | some table => (ofTable table).mapError (.ofTable table)

end TheoryScript.StatementFile
