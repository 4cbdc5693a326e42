/-
The options of a run.

Options name the logic, and say whether the header is printed, whether a skipped
statement makes the run fail, and how much is logged.
-/
import TheoryScript.Fragment
import TheoryScript.Log

namespace TheoryScript

/-- The options of a run. -/
structure Options where
  /-- The name of the fragment to encode for. -/
  logic : String := Fragment.differenceName
  /-- Whether the header is printed before the assertions. -/
  emitPreamble : Bool := false
  /-- Whether a skipped statement makes the run fail. -/
  failOnError : Bool := false
  /-- Which log records are shown. -/
  verbosity : Verbosity := .atLeast .info
  deriving DecidableEq, Repr

end TheoryScript
