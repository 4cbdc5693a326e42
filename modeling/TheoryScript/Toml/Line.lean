/-
The lines of a document.

Apart from blank lines and comments, a line opens a table with a header or assigns a
value to a key path.  A value is a string, a number, a date, a truth value, or an array
or inline table of values; arrays and inline tables nest to a fixed depth.
-/
import TheoryScript.Toml.DateTime
import TheoryScript.Toml.InlineTable
import TheoryScript.Toml.Node

namespace TheoryScript.Toml

/-! ### Values -/

/-- A truth value. -/
def boolean : Scan Value :=
  ((fun _ => Value.boolean true) <$> Scan.exact ['t', 'r', 'u', 'e']) <|>
    ((fun _ => Value.boolean false) <$> Scan.exact ['f', 'a', 'l', 's', 'e'])

/-- A value that holds no others. -/
def scalar : Scan Value :=
  (Value.string <$> string) <|> boolean <|> dateTime <|> float <|> integer

/-- An array, given how its items are read; a comma may follow the last item. -/
def array (item : Scan Value) : Scan Value := do
  Scan.char '['
  let padded : Scan Value := gap *> item <* gap
  let items ← Scan.maybe (Scan.sepBy1 padded (Scan.char ','))
  if items.isSome then
    let _ ← Scan.maybe (Scan.char ',')
  gap
  Scan.char ']'
  return .array .bracketed (items.getD [])

/-- A key path, an equals sign and a value. -/
def assignment (item : Scan Value) : Scan (KeyPath × Value) := do
  let path ← keyPath
  Scan.char '='
  spaces
  return (path, ← item)

/-- An inline table, given how its values are read; it stays on one line. -/
def inlineTable (item : Scan Value) : Scan Value := do
  Scan.char '\x7b'
  let pairs ← Scan.maybe (Scan.sepBy1 (assignment item <* spaces) (Scan.char ','))
  spaces
  Scan.char '\x7d'
  Value.table <$> StateT.lift (Table.ofAssignments? (pairs.getD []))

/-- A value in which arrays and inline tables nest at most `depth` deep. -/
def value : Nat → Scan Value
  | 0 => scalar
  | depth + 1 => array (value depth) <|> inlineTable (value depth) <|> scalar

/-- How deep arrays and inline tables may nest. -/
def maxDepth : Nat := 127

/-! ### Lines -/

/-- What a line says. -/
inductive Line where
  /-- Nothing. -/
  | blank
  /-- A header that opens a table. -/
  | header (path : KeyPath)
  /-- A header that opens one more table of a sequence. -/
  | nextHeader (path : KeyPath)
  /-- A value for a key path. -/
  | assign (path : KeyPath) (v : Value)
  deriving Repr

/-- A header between single or double brackets. -/
def header : Scan Line :=
  (Line.nextHeader <$> (Scan.exact ['[', '['] *> keyPath <* Scan.exact [']', ']'])) <|>
    (Line.header <$> (Scan.char '[' *> keyPath <* Scan.char ']'))

/-- A line with its end. -/
def line : Scan Line := do
  spaces
  let assigned : Scan Line := (fun pair => Line.assign pair.1 pair.2) <$> assignment (value maxDepth)
  let content ← header <|> assigned <|> pure .blank
  lineRest
  return content

end TheoryScript.Toml
