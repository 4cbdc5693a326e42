/-
One run of the encoder.

A run merges its options, reads a statement file, prints the script and says on the way
what happens.  What it says is a list of events: log records, the report of the skipped
statements, and the failure that ended the run.  The events do not depend on how much is
logged; a verbosity only picks which records are shown among them.
-/
import TheoryScript.Batch
import TheoryScript.CommandLine.Failure
import TheoryScript.CommandLine.Request
import TheoryScript.OptionsFile
import TheoryScript.Preamble
import TheoryScript.Report
import TheoryScript.StatementFile

namespace TheoryScript.CommandLine

/-! ### The program -/

/-- The name of the program. -/
def programName : String := "smt-encode"

/-- The version of the program. -/
def programVersion : String := "0.1.0"

/-- The target of records about the program as a whole. -/
def programTarget : String := "smt_encode"

/-- The target of records about the encoding of a file. -/
def encodeTarget : String := "smt_encode::encode"

/-! ### Events -/

/-- What a run says beside its output. -/
inductive Event where
  /-- A log record. -/
  | record (r : LogRecord)
  /-- The report of the skipped statements. -/
  | report (text : String)
  /-- The failure that ended the run. -/
  | failure (f : Failure)
  deriving DecidableEq, Repr

/-- Whether an event is shown: records by their severity, everything else always. -/
def Event.isShown (verbosity : Verbosity) : Event → Bool
  | record r => verbosity.shows r.severity
  | report _ => true
  | failure _ => true

/-- The text of an event, with the end of its last line. -/
def Event.text (explain : Explanation) : Event → String
  | record r => r.render ++ "\n"
  | report text => text
  | failure f => f.text explain ++ "\n"

/-! ### Options -/

/-- The options of a file, overridden by the arguments. -/
def Arguments.override (a : Arguments) (o : Options) : Options where
  logic := a.logic.getD o.logic
  emitPreamble := o.emitPreamble || a.preamble
  failOnError := o.failOnError || a.failOnError
  verbosity := if a.verbose then .atLeast .debug else o.verbosity

/-- The options of a run, given how files are read. -/
def loadOptions (readFile : String → Option String) (a : Arguments) : Except Failure Options :=
  match a.config with
  | none => .ok (a.override {})
  | some path =>
      match readFile path with
      | none => .error (.unreadableOptions path)
      | some text =>
          match OptionsFile.read text with
          | .error error => .error (.invalidOptions path error)
          | .ok options => .ok (a.override options)

/-- The verbosity in force: a level from the environment, if it is one, before the options. -/
def verbosityInForce (level : Option String) (o : Options) : Verbosity :=
  (level.bind Verbosity.ofNameOrRank?).getD o.verbosity

/-! ### Runs -/

/-- The fragment and the statements of a run. -/
def loadBatch (readFile : String → Option String) (a : Arguments) (o : Options) :
    Except Failure (Fragment × List Statement) :=
  match Fragment.ofName? o.logic with
  | none => .error (.unsupportedLogic o.logic)
  | some fragment =>
      match readFile a.input with
      | none => .error (.unreadableStatements a.input)
      | some text =>
          match StatementFile.read text with
          | .error error => .error (.invalidStatements a.input error)
          | .ok statements => .ok (fragment, statements)

/-- The outcome of a run. -/
structure Run where
  /-- Zero when the run succeeded. -/
  exitCode : Nat
  /-- The script. -/
  output : String
  /-- What the run says, in order. -/
  events : List Event
  /-- Which records are shown. -/
  verbosity : Verbosity
  deriving DecidableEq, Repr

/-- A record at the level of information about the encoding of a file. -/
def encodeRecord (message : String) : Event :=
  .record { severity := .info, target := encodeTarget, message }

/-- The record that opens a run. -/
def versionRecord : Event :=
  .record
    { severity := .debug, target := programTarget
      message := programName ++ " version: " ++ programVersion }

/-- What a run says once its statements are encoded. -/
def closingEvents (f : Fragment) (o : Options) (total : Nat) (skipped : Diagnostics) : List Event :=
  if skipped.isEmpty then []
  else
    [.report (skipped.report .plain),
      encodeRecord ("skipped " ++ toString skipped.size ++ " of " ++ toString total ++ " statements")]
      ++ if o.failOnError then [.failure (.skippedStatements skipped.size f.theory)] else []

/-- Encode statements that were read, by options that were read. -/
def encodeBatch (f : Fragment) (o : Options) (verbosity : Verbosity) (statements : List Statement) :
    Run :=
  let encoding := f.encodeAll statements
  let total := statements.length
  let header := if o.emitPreamble then (Preamble.ofStatements f statements).render else ""
  { exitCode := if o.failOnError && !encoding.isComplete then 1 else 0
    output := header ++ encoding.assertions
    events :=
      [versionRecord,
        encodeRecord ("encoding " ++ toString total ++ " statements for " ++ f.theory)]
        ++ encoding.log.map .record ++ closingEvents f o total encoding.diagnostics
    verbosity }

/-- Run the encoder, given how files are read and the level that the environment asks for. -/
def run (readFile : String → Option String) (level : Option String) (a : Arguments) : Run :=
  match loadOptions readFile a with
  | .error failure =>
      -- nothing is logged before the options are known
      { exitCode := 1, output := "", events := [.failure failure], verbosity := .off }
  | .ok options =>
      let verbosity := verbosityInForce level options
      match loadBatch readFile a options with
      | .error failure =>
          { exitCode := 1, output := "", events := [versionRecord, .failure failure], verbosity }
      | .ok (fragment, statements) => encodeBatch fragment options verbosity statements

/-! ### Error output -/

/-- The events of a run that are shown at a verbosity. -/
def Run.shown (r : Run) (verbosity : Verbosity) : List Event :=
  r.events.filter (·.isShown verbosity)

/-- The error output of a run, given what is said about the causes of failures. -/
def Run.errorOutput (explain : Explanation) (r : Run) : String :=
  String.join ((r.shown r.verbosity).map (Event.text explain))

end TheoryScript.CommandLine
