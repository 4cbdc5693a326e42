/-
S-expressions and their text.

A constraint is built as a tree of symbols, numerals and applications, and becomes
text only at the end.  Negative integers have no numeral of their own, so `ofInt`
writes them as the minus operation applied to their magnitude.
-/
import TheoryScript.Smt.Symbol

namespace TheoryScript.Smt

/-! ### Applications as text -/

/--
An operator before its arguments, `(op a1 a2 ...)`.  Where the arguments join to the
empty text, there is nothing to apply to and the operator stands alone.
-/
def application (operator : String) (arguments : List String) : String :=
  let joined := " ".intercalate arguments
  if joined.isEmpty then operator else "(" ++ operator ++ " " ++ joined ++ ")"

/-! ### Trees -/

/-- A symbol, a numeral, or an operator before its arguments. -/
inductive SExpr where
  /-- A name, written as `symbol` says. -/
  | symbol (name : String)
  /-- A natural number in decimal digits. -/
  | numeral (value : Nat)
  /-- An operator, written as it is, before its arguments. -/
  | app (operator : String) (arguments : List SExpr)
  deriving Repr

namespace SExpr

/-- An integer: a numeral, or minus applied to a numeral. -/
def ofInt (value : Int) : SExpr :=
  if value < 0 then app "-" [numeral value.natAbs] else numeral value.natAbs

mutual

/-- The text of a tree. -/
def render : SExpr → String
  | symbol name => Smt.symbol name
  | numeral value => toString value
  | app operator arguments => application operator (renderAll arguments)

/-- The texts of several trees, in order. -/
def renderAll : List SExpr → List String
  | [] => []
  | e :: rest => e.render :: renderAll rest

end

/-- Rendering a list renders each of its trees. -/
theorem renderAll_eq_map (es : List SExpr) : renderAll es = es.map render := by
  induction es with
  | nil => rfl
  | cons e rest ih => simp [renderAll, ih]

end SExpr

end TheoryScript.Smt
