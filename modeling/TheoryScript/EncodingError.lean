/-
Why a statement cannot be encoded.

An error never ends a batch: it is recorded beside the statement that it concerns and
the other statements are encoded as if that one were not there.  Each error has a kind,
which names the rule that was broken, and one wording.
-/
namespace TheoryScript

/-! ### Kinds -/

/-- The rule that a statement broke. -/
inductive ErrorKind where
  /-- The statement does not have the form of its category. -/
  | malformedShape
  /-- The statement relates too many variables. -/
  | arity
  /-- The statement uses an operator that its category does not know. -/
  | unsupportedOperator
  /-- The fragment has no statements of this category. -/
  | unsupportedCategory
  /-- An atom or a variable cannot be declared under its name. -/
  | invalidSymbol
  deriving DecidableEq, Repr

/-- The name under which a kind is reported. -/
def ErrorKind.name : ErrorKind → String
  | malformedShape => "MalformedStatementShape"
  | arity => "ArityViolation"
  | unsupportedOperator => "UnsupportedOperator"
  | unsupportedCategory => "UnsupportedStatementCategory"
  | invalidSymbol => "InvalidSymbol"

/-- Where an operator stands in a statement. -/
inductive OperatorPosition where
  /-- At the top of the left-hand term. -/
  | operation
  /-- Between the two sides. -/
  | relation
  deriving DecidableEq, Repr

/-- The wording of a position. -/
def OperatorPosition.text : OperatorPosition → String
  | operation => "operation"
  | relation => "relational operator"

/-! ### Errors -/

/-- What is wrong with a statement. -/
inductive EncodingError where
  /-- The statement does not have the form of its category. -/
  | malformed (category reason : String)
  /-- More variables occur than a statement of the category may relate. -/
  | tooManyVariables (category : String) (found max : Nat)
  /-- An operator is not the one that its place allows. -/
  | unsupportedOperator (category : String) (position : OperatorPosition) (operator allowed : String)
  /-- The fragment has no statements of the category. -/
  | unsupportedCategory (category theory : String)
  /-- A name cannot be declared as a symbol of its own. -/
  | invalidSymbol (name reason : String)
  deriving DecidableEq, Repr

namespace EncodingError

/-- The rule that an error is about. -/
def kind : EncodingError → ErrorKind
  | malformed .. => .malformedShape
  | tooManyVariables .. => .arity
  | unsupportedOperator .. => .unsupportedOperator
  | unsupportedCategory .. => .unsupportedCategory
  | invalidSymbol .. => .invalidSymbol

/-- How the message about a statement of a category begins. -/
def invalidSyntax (category detail : String) : String :=
  "invalid syntax for " ++ category ++ " statement: " ++ detail

/-- The wording of an error. -/
def message : EncodingError → String
  | malformed category reason => invalidSyntax category reason
  | tooManyVariables category found max =>
      invalidSyntax category
        (toString found ++ " variables found, at most " ++ toString max ++ " allowed")
  | unsupportedOperator category position operator allowed =>
      invalidSyntax category
        (position.text ++ " `" ++ operator ++ "` is not allowed, only `" ++ allowed ++ "` is")
  | unsupportedCategory category theory =>
      "the " ++ category ++ " statement is not supported with the " ++ theory ++ " logic"
  | invalidSymbol name reason => "`" ++ name ++ "` cannot be used as an SMT symbol: " ++ reason

end EncodingError

end TheoryScript
