/-
The names that a statement needs declared.

A statement of a batch uses its atom as a Boolean and its variables as integers.  All of
them must be declarable, and no variable may share its name with an atom of the batch,
since one name would then be declared with two sorts.
-/
import TheoryScript.EncodingError
import TheoryScript.Names
import TheoryScript.Statement

namespace TheoryScript

/-- The distinct atoms of a batch, in increasing order. -/
def Statement.atoms (statements : List Statement) : List String :=
  Names.sorted (statements.map Statement.atom)

/-- What is wrong with a variable beside the given atoms: first its own name, then a clash. -/
def variableFault? (atoms : List String) (name : String) : Option Smt.SymbolFault :=
  match Smt.symbolFault? name with
  | some fault => some fault
  | none => if atoms.contains name then some .statementAtom else none

/-- A fault of a name, as an error about it. -/
def EncodingError.ofSymbolFault (name : String) (fault : Smt.SymbolFault) : EncodingError :=
  .invalidSymbol name fault.text

/-- The error about a name on its own, if it cannot be declared. -/
def nameError? (name : String) : Option EncodingError :=
  (Smt.symbolFault? name).map (.ofSymbolFault name)

/-- The error about a variable beside the given atoms, if it has one. -/
def variableError? (atoms : List String) (name : String) : Option EncodingError :=
  (variableFault? atoms name).map (.ofSymbolFault name)

/-- The first error among the atom of a statement and its variables in first-seen order. -/
def Statement.nameError? (s : Statement) (atoms : List String) : Option EncodingError :=
  match TheoryScript.nameError? s.atom with
  | some error => some error
  | none => s.vars.findSome? (variableError? atoms)

end TheoryScript
