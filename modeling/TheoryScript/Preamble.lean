/-
The header of a script.

The header selects the logic and declares what the statements of a batch use: a Boolean
for every atom and an integer for every variable, each sort in increasing order.  Names
that cannot be declared, and variables that share an atom's name, are left out; the
statements that need them are the ones that a batch skips.
-/
import TheoryScript.Fragment
import TheoryScript.Smt.Command
import TheoryScript.Statement.Names

namespace TheoryScript

/-- What a header declares. -/
structure Preamble where
  /-- The logic of the script. -/
  logic : String
  /-- The names declared as Booleans. -/
  booleans : List String
  /-- The names declared as integers. -/
  integers : List String
  deriving DecidableEq, Repr

namespace Preamble

/-- The header for a batch in a fragment. -/
def ofStatements (f : Fragment) (statements : List Statement) : Preamble :=
  let atoms := Statement.atoms statements
  let names := Names.sorted (statements.flatMap Statement.vars)
  { logic := f.theory
    booleans := atoms.filter fun name => (Smt.symbolFault? name).isNone
    integers := names.filter fun name => (variableFault? atoms name).isNone }

/-- The commands of a header, in order. -/
def commands (p : Preamble) : List String :=
  Smt.setLogic p.logic ::
    (p.booleans.map (Smt.declareConst · "Bool") ++ p.integers.map (Smt.declareConst · "Int"))

/-- The text of a header, one command a line. -/
def render (p : Preamble) : String :=
  String.join (p.commands.map (· ++ "\n"))

end Preamble

end TheoryScript
