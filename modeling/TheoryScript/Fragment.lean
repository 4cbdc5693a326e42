/-
Fragments of the theory.

A fragment has the name of an SMT-LIB logic and lowers each statement of its categories
to a constraint.  Quantifier-free integer difference logic is the one fragment so far;
it knows difference constraints and domains.
-/
import TheoryScript.Fragment.Difference
import TheoryScript.Fragment.Domain

namespace TheoryScript

/-- A logic, and how its statements become constraints. -/
structure Fragment where
  /-- The SMT-LIB name of the logic. -/
  theory : String
  /-- The constraint of a statement, or the first rule that it breaks. -/
  lower : Statement → Except EncodingError Smt.SExpr

namespace Fragment

/-! ### Difference logic -/

/-- The name of quantifier-free integer difference logic. -/
def differenceName : String := "QF_IDL"

/-- Lower a statement by the rules of its category. -/
def lowerDifference (s : Statement) : Except EncodingError Smt.SExpr :=
  if s.category = Difference.category then Difference.lower s
  else if s.category = Domain.category then Domain.lower s
  else .error (.unsupportedCategory s.category differenceName)

/-- Quantifier-free integer difference logic. -/
def difference : Fragment where
  theory := differenceName
  lower := lowerDifference

/-! ### Looking up a fragment -/

/-- All fragments. -/
def all : List Fragment := [difference]

/-- The names of all fragments. -/
def supported : List String := all.map theory

/-- The fragment of a name, whatever the case of its ASCII letters. -/
def ofName? (name : String) : Option Fragment :=
  all.find? (·.theory == name.toUpper)

/-! ### Encoding one statement -/

/-- The text of a statement's constraint, or the first rule that the statement breaks. -/
def encode (f : Fragment) (s : Statement) : Except EncodingError String :=
  (f.lower s).map Smt.SExpr.render

end Fragment

end TheoryScript
