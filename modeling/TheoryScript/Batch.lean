/-
Encoding a batch of statements.

Every statement of a batch is either asserted or skipped.  An asserted statement gives
one line, the assertion that its atom equals its constraint; a skipped one gives a
diagnostic.  Either way the log has one record about it.  Whether names clash depends on
the atoms of the whole batch, so those are collected first.

Lines go to a sink that may refuse them.  The first write that fails ends the batch: the
statements after it are not looked at.
-/
import TheoryScript.Diagnostics
import TheoryScript.Fragment
import TheoryScript.Log
import TheoryScript.Sink
import TheoryScript.Smt.Command
import TheoryScript.Statement.Names
import TheoryScript.Text.Lines

namespace TheoryScript

/-! ### One statement -/

namespace Fragment

/-- What becomes of a statement beside the atoms of its batch. -/
def outcome (f : Fragment) (atoms : List String) (s : Statement) : Except EncodingError Smt.SExpr :=
  match s.nameError? atoms with
  | some error => .error error
  | none => f.lower s

/-- The target of the records about single statements. -/
def logTarget : String := "theory_encoder::logic"

/-- How the records of a fragment begin. -/
def logMark (f : Fragment) : String :=
  "[" ++ f.theory ++ "] "

/-- The record that a statement was asserted. -/
def encodedRecord (f : Fragment) (s : Statement) : LogRecord where
  severity := .debug
  target := logTarget
  message := f.logMark ++ "encoded " ++ s.category ++ " statement " ++ s.atom

/-- The record that a statement was skipped. -/
def skippedRecord (f : Fragment) (s : Statement) (error : EncodingError) : LogRecord where
  severity := .warn
  target := logTarget
  message := f.logMark ++ "skipping statement " ++ s.atom ++ ": " ++ error.message

end Fragment

/-- The line that asserts a statement: its atom equals its constraint. -/
def Statement.assertion (s : Statement) (constraint : Smt.SExpr) : String :=
  Smt.assertion (Smt.equation (Smt.symbol s.atom) constraint.render)

/-! ### A run over a batch -/

/-- What a run over a batch has written and recorded so far. -/
structure Progress where
  /-- Where the assertions go. -/
  sink : Sink := {}
  /-- The skipped statements. -/
  diagnostics : Diagnostics := {}
  /-- The log, the earliest record first. -/
  log : List LogRecord := []

namespace Fragment

/-- Assert or skip the statements in order, until a write fails; the flag says that none did. -/
def emitAll (f : Fragment) (atoms : List String) : List Statement → Progress → Progress × Bool
  | [], p => (p, true)
  | s :: rest, p =>
      match f.outcome atoms s with
      | .error error =>
          f.emitAll atoms rest
            { p with
              diagnostics := p.diagnostics.push (.ofStatement f.theory s error)
              log := p.log ++ [f.skippedRecord s error] }
      | .ok constraint =>
          let logged := p.log ++ [f.encodedRecord s]
          match p.sink.writeLine (s.assertion constraint) with
          | (sink, true) => f.emitAll atoms rest { p with sink, log := logged }
          | (sink, false) => ({ p with sink, log := logged }, false)

/-- Run over a batch, behind what was written and recorded before. -/
def emit (f : Fragment) (statements : List Statement) (p : Progress) : Progress × Bool :=
  f.emitAll (Statement.atoms statements) statements p

end Fragment

/-! ### A batch as a whole -/

/-- The result of encoding a batch without a limit. -/
structure Encoding where
  /-- The assertions, one a line. -/
  assertions : String
  /-- The skipped statements. -/
  diagnostics : Diagnostics
  /-- One record for each statement. -/
  log : List LogRecord
  deriving DecidableEq, Repr

/-- Encode a batch; a sink without a limit takes every line. -/
def Fragment.encodeAll (f : Fragment) (statements : List Statement) : Encoding :=
  let p := (f.emit statements {}).1
  { assertions := p.sink.text, diagnostics := p.diagnostics, log := p.log }

namespace Encoding

/-- The assertions as single lines. -/
def lines (e : Encoding) : List String :=
  Text.lines e.assertions

/-- Whether no statement was skipped. -/
def isComplete (e : Encoding) : Bool :=
  e.diagnostics.isEmpty

end Encoding

end TheoryScript
