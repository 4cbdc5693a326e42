/-
The commands of a script.

A script names its logic, declares its symbols and asserts equations between them and
constraints.  Each command is an application of its own name, written on one line of
text by whoever emits it.
-/
import TheoryScript.Smt.SExpr

namespace TheoryScript.Smt

/-- The command that asserts a formula. -/
def assertion (formula : String) : String :=
  application "assert" [formula]

/-- The formula that two sides are equal. -/
def equation (left right : String) : String :=
  application "=" [left, right]

/-- The command that selects the logic of a script. -/
def setLogic (name : String) : String :=
  application "set-logic" [name]

/-- The command that declares a constant of a sort: a function without parameters. -/
def declareConst (name sort : String) : String :=
  "(declare-fun " ++ symbol name ++ " () " ++ sort ++ ")"

end TheoryScript.Smt
