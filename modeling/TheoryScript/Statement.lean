/-
Theory statements.

A statement `&diff { x - y } <= 3` has a category (`diff`), a list of elements between
the braces, a relation and a right-hand term.  Its atom names the Boolean that is true
exactly when the statement holds.
-/
import TheoryScript.Term

namespace TheoryScript

/-! ### Elements -/

/-- A group of terms on the left-hand side. -/
structure Element where
  /-- The terms of the group, in order. -/
  terms : List Term
  deriving DecidableEq, Repr

/-- The terms of an element, one blank between neighbours. -/
def Element.render (e : Element) : String :=
  " ".intercalate (e.terms.map Term.render)

/-! ### Statements -/

/-- A theory statement of a ground program. -/
structure Statement where
  /-- The name of the Boolean that stands for the statement. -/
  atom : String
  /-- The kind of statement, such as `diff` or `dom`. -/
  category : String
  /-- The left-hand side. -/
  elements : List Element
  /-- The relation between the two sides, such as `<=`. -/
  relation : String
  /-- The right-hand side. -/
  right : Term
  deriving DecidableEq, Repr

namespace Statement

/-- All terms of a statement, the left-hand side first. -/
def terms (s : Statement) : List Term :=
  s.elements.flatMap Element.terms ++ [s.right]

/-- The first term of the first element. -/
def head? (s : Statement) : Option Term :=
  s.elements.head?.bind (·.terms.head?)

/-- The distinct variables of a statement, in the order in which they are first seen. -/
def vars (s : Statement) : List String :=
  (s.terms.flatMap Term.vars).eraseDups

/-- The variable leaves of a statement, each as often as it occurs. -/
def leaves (s : Statement) : List String :=
  s.terms.flatMap Term.leaves

end Statement

end TheoryScript
