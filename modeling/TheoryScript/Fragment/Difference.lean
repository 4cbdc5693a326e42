/-
Difference constraints.

A statement `&diff { x - y } <= c` bounds the one term between the braces, its head.
The rules are tried in a fixed order and the first that is broken is the error: one
element with one term, integers for constants and operands for operations, a bound that
is a number or a variable, at most two variables below an operation, the operation `-`
at the top, and the relation `<=`.
-/
import TheoryScript.Fragment.Shape

namespace TheoryScript.Difference

/-- The category of difference constraints. -/
def category : String := "diff"

/-- A difference relates at most two variables. -/
def maxVariables : Nat := 2

/-- The operation of a difference. -/
def operation : String := "-"

/-- The relation of a difference to its bound. -/
def relation : String := "<="

/-! ### Rules -/

/-- The one term of the one element. -/
def soleHead (s : Statement) : Except ShapeFault Term :=
  match s.elements with
  | [] => .error .missingHead
  | [e] => e.soleTerm
  | _ :: _ :: _ => .error .severalElements

mutual

/-- The first node that is no integer term, parents before children and left to right. -/
def operandFault? : Term → Option ShapeFault
  | .var _ => none
  | .const (.int _) => none
  | .const (.name name) => some (.symbolicConstant name)
  | .app operation [] => some (.noOperands operation)
  | .app _ (t :: rest) => operandsFault? (t :: rest)

/-- The first such node of several terms. -/
def operandsFault? : List Term → Option ShapeFault
  | [] => none
  | t :: rest =>
      match operandFault? t with
      | some fault => some fault
      | none => operandsFault? rest

end

/-- A bound is a number or a variable. -/
def boundFault? : Term → Option ShapeFault
  | .const (.int _) => none
  | .var _ => none
  | .const (.name _) => some .bound
  | .app _ _ => some .bound

/-- The first rule about the operation at the top of a head that the head breaks. -/
def headError? (s : Statement) : Term → Option EncodingError
  | .app op children =>
      let found := (Term.app op children).variableCount
      if maxVariables < found then some (.tooManyVariables s.category found maxVariables)
      else if op = operation then none
      else some (.unsupportedOperator s.category .operation op operation)
  | .var _ => none
  | .const _ => none

/-- The first broken rule of a statement whose head is known. -/
def error? (s : Statement) (head : Term) : Option EncodingError :=
  ((operandFault? head).map s.malformed).or <|
    ((boundFault? s.right).map s.malformed).or <|
      (headError? s head).or (s.relationError? relation)

/-! ### Lowering -/

/-- The constraint of a difference: head and bound under the relation. -/
def constraint (head bound : Term) : Smt.SExpr :=
  .app relation [head.toSExpr, bound.toSExpr]

/-- The constraint of a statement, or the first rule that it breaks. -/
def lower (s : Statement) : Except EncodingError Smt.SExpr :=
  match soleHead s with
  | .error fault => .error (s.malformed fault)
  | .ok head =>
      match error? s head with
      | some error => .error error
      | none => .ok (constraint head s.right)

end TheoryScript.Difference
