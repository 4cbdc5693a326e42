/-
Names as SMT-LIB symbols.

A name is written bare when it has the form of a simple symbol and is not a reserved
word, and between bars otherwise.  Bars cannot hold every name: neither a bar nor a
backslash may stand between them, and a theory symbol stays the theory's own however
it is written.  `symbolFault?` says which names cannot be declared, and why.
-/
namespace TheoryScript.Smt

/-! ### Characters -/

/-- The marks that a simple symbol may hold beside letters and digits. -/
def symbolMarks : List Char :=
  ['~', '!', '@', '$', '%', '^', '&', '*', '_', '+', '=', '<', '>', '.', '?', '/', '-']

/-- A simple symbol starts with an ASCII letter or a mark. -/
def isSymbolStart (c : Char) : Bool :=
  c.isAlpha || symbolMarks.contains c

/-- After its first character a simple symbol may also hold ASCII digits. -/
def isSymbolChar (c : Char) : Bool :=
  isSymbolStart c || c.isDigit

/-! ### Simple symbols and reserved names -/

/-- A simple symbol is a start followed by symbol characters, to the very end of the name. -/
def isSimple (name : String) : Bool :=
  match name.toList with
  | [] => false
  | c :: rest => isSymbolStart c && rest.all isSymbolChar

/-- Words that have the form of a simple symbol and are symbols only between bars. -/
def reservedWords : List String :=
  ["_", "!", "as", "let", "exists", "forall", "match", "par", "NUMERAL", "DECIMAL", "STRING",
    "BINARY", "HEXADECIMAL"]

/-- Symbols that the core and integer theories have already given a meaning. -/
def theorySymbols : List String :=
  ["true", "false", "not", "and", "or", "xor", "=>", "=", "distinct", "ite", "+", "-", "*",
    "div", "mod", "abs", "<=", "<", ">=", ">"]

/-- The name as a symbol: bare where the grammar allows it, between bars otherwise. -/
def symbol (name : String) : String :=
  if isSimple name && !reservedWords.contains name then name else "|" ++ name ++ "|"

/-! ### Names that cannot be declared -/

/-- Why a name cannot be declared as a symbol of its own. -/
inductive SymbolFault where
  /-- The name has no characters. -/
  | empty
  /-- The name holds a character that cannot stand between bars. -/
  | unquotable
  /-- The name already has a meaning in the core or integer theory. -/
  | theorySymbol
  /-- The name of a variable is also the name of a statement's atom. -/
  | statementAtom
  deriving DecidableEq, Repr

/-- The wording of a fault. -/
def SymbolFault.text : SymbolFault → String
  | empty => "empty name"
  | unquotable => "quoted symbols cannot contain `|` or `\\`"
  | theorySymbol => "it is a symbol of the theory"
  | statementAtom => "it also names a statement atom"

/-- Bars cannot enclose a bar or a backslash. -/
def isQuotable (name : String) : Bool :=
  name.toList.all fun c => c != '|' && c != '\\'

/-- The first fault of a name on its own, if it has one. -/
def symbolFault? (name : String) : Option SymbolFault :=
  if name.isEmpty then some .empty
  else if !isQuotable name then some .unquotable
  else if theorySymbols.contains name then some .theorySymbol
  else none

end TheoryScript.Smt
