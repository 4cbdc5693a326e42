/-
Diagnostics as text for a reader.

Each diagnostic is a headline with its kind and message, then one note for the theory
and one for the statement, then an empty line.  A note may run over several lines; the
later ones are indented under the first.  On a terminal, colour sets the kind and the
note marks apart; the words are the same.
-/
import TheoryScript.Diagnostics
import TheoryScript.Text.Lines

namespace TheoryScript

/-! ### Colour -/

/-- Whether a report carries terminal colours. -/
inductive ReportStyle where
  /-- Words only. -/
  | plain
  /-- Words between colour codes. -/
  | coloured
  deriving DecidableEq, Repr

/-- The escape sequence that selects how a terminal shows what follows. -/
def Terminal.select (code : String) : String :=
  "\x1b[" ++ code ++ "m"

/-- Back to the terminal's default. -/
def Terminal.reset : String := Terminal.select "0"

/-- Bold letters. -/
def Terminal.bold : String := Terminal.select "1"

/-- Bright red letters. -/
def Terminal.red : String := Terminal.select "38;5;9"

/-- Blue letters. -/
def Terminal.blue : String := Terminal.select "34"

/-! ### Parts of a report -/

namespace Report

/-- The line that names the kind of a diagnostic and gives its message. -/
def headline (style : ReportStyle) (d : Diagnostic) : String :=
  let title := "error[" ++ d.kind.name ++ "]"
  let text := ": " ++ d.error.message
  match style with
  | .plain => title ++ text ++ "\n"
  | .coloured =>
      Terminal.reset ++ Terminal.bold ++ Terminal.red ++ title ++
        Terminal.reset ++ Terminal.bold ++ text ++ Terminal.reset ++ "\n"

/-- The mark before the first line of a note. -/
def noteMark : ReportStyle → String
  | .plain => " ="
  | .coloured => " " ++ Terminal.reset ++ Terminal.blue ++ "=" ++ Terminal.reset

/-- A note, its later lines indented under the first. -/
def note (style : ReportStyle) (text : String) : String :=
  match Text.lines text with
  | [] => ""
  | first :: rest =>
      noteMark style ++ " " ++ first ++ "\n" ++ String.join (rest.map fun line => "   " ++ line ++ "\n")

end Report

/-- The report of one diagnostic. -/
def Diagnostic.report (d : Diagnostic) (style : ReportStyle) : String :=
  Report.headline style d ++ Report.note style ("theory: " ++ d.theory) ++
    Report.note style ("statement: " ++ d.atom ++ " (" ++ d.category ++ ")") ++ "\n"

/-- The report of all diagnostics, in the order in which they were recorded. -/
def Diagnostics.report (ds : Diagnostics) (style : ReportStyle) : String :=
  String.join (ds.toList.map (·.report style))

end TheoryScript
