/-
What can be wrong with the shape of a statement.

The faults of all categories are listed here with their wording.  An element of a
statement may hold several terms, but both categories of difference logic want exactly
one, so that rule is shared.
-/
import TheoryScript.EncodingError
import TheoryScript.Statement

namespace TheoryScript

/-- A departure from the form that a category prescribes. -/
inductive ShapeFault where
  /-- There is no element to constrain. -/
  | missingHead
  /-- There are several elements where one is wanted. -/
  | severalElements
  /-- An element has no term. -/
  | emptyElement
  /-- An element has several terms. -/
  | severalTerms
  /-- A symbolic constant stands where a number is wanted. -/
  | symbolicConstant (name : String)
  /-- An operation is applied to nothing. -/
  | noOperands (operation : String)
  /-- The right-hand side of a difference is neither a number nor a variable. -/
  | bound
  /-- A domain lists nothing. -/
  | emptyDomain
  /-- A domain is not bound to a variable. -/
  | unboundDomain
  /-- A range has no members. -/
  | emptyRange (lower upper : Int64)
  /-- A range is not between two numbers. -/
  | rangeBounds
  /-- An element of a domain is neither a number nor a range. -/
  | domainElement
  deriving DecidableEq, Repr

/-- The wording of a fault. -/
def ShapeFault.text : ShapeFault → String
  | missingHead => "missing left-hand term"
  | severalElements => "more than one term not allowed"
  | emptyElement => "empty element"
  | severalTerms => "an element must hold exactly one term"
  | symbolicConstant name => "symbolic constant `" ++ name ++ "` is not an integer"
  | noOperands operation => "operation `" ++ operation ++ "` has no operands"
  | bound => "the bound must be an integer or a variable"
  | emptyDomain => "a domain needs at least one value or range"
  | unboundDomain => "a domain must be bound to a variable"
  | emptyRange lower upper =>
      "empty range " ++ toString lower.toInt ++ ".." ++ toString upper.toInt
  | rangeBounds => "range bounds must be integer literals"
  | domainElement => "a domain element must be an integer or a range l..u"

/-- The one term of an element. -/
def Element.soleTerm (e : Element) : Except ShapeFault Term :=
  match e.terms with
  | [] => .error .emptyElement
  | [t] => .ok t
  | _ :: _ :: _ => .error .severalTerms

/-- A fault of a statement's shape, as an error about its category. -/
def Statement.malformed (s : Statement) (fault : ShapeFault) : EncodingError :=
  .malformed s.category fault.text

/-- The error about the relation of a statement, unless it is the one allowed. -/
def Statement.relationError? (s : Statement) (allowed : String) : Option EncodingError :=
  if s.relation = allowed then none
  else some (.unsupportedOperator s.category .relation s.relation allowed)

end TheoryScript
