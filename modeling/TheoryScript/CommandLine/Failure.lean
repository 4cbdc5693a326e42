/-
Why a run fails.

A failure is reported by one message of the program's own.  Where a file is at fault, the
message is followed by a cause, which is in the words of the system or of the reader of
documents; it may quote the file and count its lines.  What they say is not decided here, so
it is a parameter (`Wording`), and a failure can also be reported without its cause.
-/
import TheoryScript.Fragment
import TheoryScript.Toml.ShapeError

namespace TheoryScript.CommandLine

/-! ### Failures -/

/-- Why a run failed. -/
inductive Failure where
  /-- The options file cannot be read. -/
  | unreadableOptions (path : String)
  /-- The options file does not describe options. -/
  | invalidOptions (path : String) (error : Toml.ReadError)
  /-- There is no such fragment. -/
  | unsupportedLogic (name : String)
  /-- The statement file cannot be read. -/
  | unreadableStatements (path : String)
  /-- The statement file does not describe statements. -/
  | invalidStatements (path : String) (error : Toml.ReadError)
  /-- Statements were skipped in a run that must not skip any. -/
  | skippedStatements (count : Nat) (theory : String)
  deriving DecidableEq, Repr

/-- The wording of a failure, without its cause. -/
def Failure.message : Failure → String
  | unreadableOptions path => "cannot read options file " ++ path
  | invalidOptions path _ => "invalid options file " ++ path
  | unsupportedLogic name =>
      "unsupported logic `" ++ name ++ "`, expected one of: " ++ ", ".intercalate Fragment.supported
  | unreadableStatements path => "cannot read statement file " ++ path
  | invalidStatements path _ => "invalid statement file " ++ path
  | skippedStatements count theory =>
      toString count ++ " statement(s) could not be encoded for " ++ theory

/-! ### Causes -/

/-- What is said about the cause of each failure, if anything is. -/
abbrev Explanation := Failure → Option String

/-- Nothing is said about causes. -/
def unexplained : Explanation := fun _ => none

/-- What the system says about files that cannot be read, and the reader about their contents. -/
structure Wording where
  /-- Why the file at a path cannot be read. -/
  unreadable (path : String) : String
  /-- Why a text does not describe options. -/
  invalidOptions (text : String) : String
  /-- Why a text does not describe statements. -/
  invalidStatements (text : String) : String

/-- The causes of failures in the given words, where a file is at fault. -/
def Wording.explain (w : Wording) (readFile : String → Option String) : Explanation
  | .unreadableOptions path => some (w.unreadable path)
  | .invalidOptions path _ => (readFile path).map w.invalidOptions
  | .unsupportedLogic _ => none
  | .unreadableStatements path => some (w.unreadable path)
  | .invalidStatements path _ => (readFile path).map w.invalidStatements
  | .skippedStatements _ _ => none

/-- How the cause of a failure is set off from its message. -/
def causeMark : String := "\n\nCaused by:"

/-- The blanks in front of each line of a cause. -/
def causeMargin : List Char := [' ', ' ', ' ', ' ']

/-- The lines of a cause, each behind the margin. -/
def causeLines (cause : String) : String :=
  let behindMargin := fun c => if c = '\n' then c :: causeMargin else [c]
  String.ofList (causeMargin ++ cause.toList.flatMap behindMargin)

/-- A failure as it is reported: its message, and its cause where there is one to tell. -/
def Failure.text (explain : Explanation) (f : Failure) : String :=
  match explain f with
  | none => f.message
  | some cause => f.message ++ causeMark ++ "\n" ++ causeLines cause

end TheoryScript.CommandLine
