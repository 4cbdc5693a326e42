/-
Domains.

A statement `&dom { 1..5; 9 } = x` lists the values that a variable may take.  Each
element is an item, a single number or a closed range.  The rules are tried in a fixed
order: at least one element, a variable on the right, every element an item, from left
to right, and the relation `=`.
-/
import TheoryScript.Fragment.Shape

namespace TheoryScript.Domain

/-- The category of domains. -/
def category : String := "dom"

/-- The operation that spans a range. -/
def rangeOperation : String := ".."

/-- The relation of a domain to its variable. -/
def relation : String := "="

/-! ### Items -/

/-- What one element of a domain lists. -/
inductive Item where
  /-- One value. -/
  | value (v : Int64)
  /-- All values from `lower` to `upper`, both included. -/
  | range (lower upper : Int64)
  deriving DecidableEq, Repr

/-- The item that a term stands for. -/
def Item.ofTerm : Term → Except ShapeFault Item
  | .const (.int v) => .ok (.value v)
  | .app operation children =>
      if operation = rangeOperation then
        match children with
        | [.const (.int lower), .const (.int upper)] =>
            if upper < lower then .error (.emptyRange lower upper) else .ok (.range lower upper)
        | _ => .error .rangeBounds
      else .error .domainElement
  | .const (.name _) => .error .domainElement
  | .var _ => .error .domainElement

/-- The item that an element stands for. -/
def Item.ofElement (e : Element) : Except ShapeFault Item :=
  match e.soleTerm with
  | .error fault => .error fault
  | .ok t => Item.ofTerm t

/-- The items of several elements, or the fault of the first that is none. -/
def items : List Element → Except ShapeFault (List Item)
  | [] => .ok []
  | e :: rest =>
      match Item.ofElement e with
      | .error fault => .error fault
      | .ok item => (items rest).map (item :: ·)

/-- The formula that a variable is among the values of an item. -/
def Item.toSExpr (variableName : String) : Item → Smt.SExpr
  | value v => .app "=" [.symbol variableName, .ofInt v.toInt]
  | range lower upper =>
      .app "and"
        [.app "<=" [.ofInt lower.toInt, .symbol variableName],
          .app "<=" [.symbol variableName, .ofInt upper.toInt]]

/-! ### Lowering -/

/-- The formula that a variable is among the values of some item. -/
def constraint (variableName : String) : List Item → Smt.SExpr
  | [item] => item.toSExpr variableName
  | several => .app "or" (several.map (Item.toSExpr variableName))

/-- The constraint of a statement, or the first rule that it breaks. -/
def lower (s : Statement) : Except EncodingError Smt.SExpr :=
  if s.elements.isEmpty then .error (s.malformed .emptyDomain)
  else
    match s.right with
    | .var name =>
        match items s.elements with
        | .error fault => .error (s.malformed fault)
        | .ok found =>
            match s.relationError? relation with
            | some error => .error error
            | none => .ok (constraint name found)
    | .const _ => .error (s.malformed .unboundDomain)
    | .app _ _ => .error (s.malformed .unboundDomain)

end TheoryScript.Domain
