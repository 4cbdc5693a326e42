/-
Log records and verbosity.

A record has a severity, the target that it comes from and a message.  A verbosity lets
through the records that are severe enough; severities and verbosities are compared by
rank, and rank zero lets nothing through.  A message is printed on a terminal, so the
control characters that would steer one are spelled out.
-/
import TheoryScript.Text.TerminalSafe

namespace TheoryScript

/-! ### Severity -/

/-- How serious a record is. -/
inductive Severity where
  /-- The run cannot go on. -/
  | error
  /-- Something was left out. -/
  | warn
  /-- The run goes as it should. -/
  | info
  /-- A single step of the run. -/
  | debug
  /-- The smallest detail. -/
  | trace
  deriving DecidableEq, Repr

/-- The most serious records have the lowest rank. -/
def Severity.rank : Severity → Nat
  | error => 1
  | warn => 2
  | info => 3
  | debug => 4
  | trace => 5

/-- The word for a severity. -/
def Severity.name : Severity → String
  | error => "ERROR"
  | warn => "WARN"
  | info => "INFO"
  | debug => "DEBUG"
  | trace => "TRACE"

/-! ### Verbosity -/

/-- Which records are shown. -/
inductive Verbosity where
  /-- None. -/
  | off
  /-- Those at least as serious as the given severity. -/
  | atLeast (severity : Severity)
  deriving DecidableEq, Repr

namespace Verbosity

/-- All verbosities, from silence to everything. -/
def all : List Verbosity :=
  [off, atLeast .error, atLeast .warn, atLeast .info, atLeast .debug, atLeast .trace]

/-- The rank of the least serious records that are shown. -/
def rank : Verbosity → Nat
  | off => 0
  | atLeast severity => severity.rank

/-- The word for a verbosity. -/
def name : Verbosity → String
  | off => "OFF"
  | atLeast severity => severity.name

/-- The verbosity of a word, whatever the case of its ASCII letters. -/
def ofName? (word : String) : Option Verbosity :=
  all.find? (·.name == word.toUpper)

/-- The verbosity of a word or of a digit that gives the rank. -/
def ofNameOrRank? (word : String) : Option Verbosity :=
  match ofName? word with
  | some verbosity => some verbosity
  | none => all.find? fun verbosity => toString verbosity.rank == word

/-- Whether records of a severity are shown. -/
def shows (v : Verbosity) (severity : Severity) : Bool :=
  severity.rank ≤ v.rank

end Verbosity

/-! ### Records -/

/-- One line of a log. -/
structure LogRecord where
  /-- How serious the record is. -/
  severity : Severity
  /-- Where the record comes from. -/
  target : String
  /-- What happened. -/
  message : String
  deriving DecidableEq, Repr

/-- A record as it is printed, its severity right-aligned to five columns, its message safe. -/
def LogRecord.render (r : LogRecord) : String :=
  let word := r.severity.name
  String.ofList (List.replicate (5 - word.length) ' ') ++ word ++ " " ++ r.target ++ ": " ++
    Text.terminalSafe r.message

end TheoryScript
