/-
Blanks, line ends and comments.

Blanks within a line are spaces and tabs.  A line ends with a line feed, which a carriage
return may precede; a carriage return alone ends nothing.  A comment runs from a number
sign to the end of its line and may hold no control character but the tab.
-/
import TheoryScript.Toml.Scan

namespace TheoryScript.Toml

/-- A space or a tab. -/
def isSpace (c : Char) : Bool :=
  c == ' ' || c == '\t'

/-- A character that is neither ASCII nor a control character of ASCII. -/
def isBeyondAscii (c : Char) : Bool :=
  0x80 ≤ c.toNat

/-- A tab, or a character that is no control character of ASCII. -/
def isCommentChar (c : Char) : Bool :=
  c == '\t' || (0x20 ≤ c.toNat && c.toNat ≤ 0x7E) || isBeyondAscii c

/-- Skip blanks within a line. -/
def spaces : Scan Unit :=
  (fun _ => ()) <$> Scan.run isSpace

/-- The end of a line. -/
def newline : Scan Unit :=
  Scan.exact ['\n'] <|> Scan.exact ['\r', '\n']

/-- A comment, up to the end of its line. -/
def comment : Scan Unit :=
  (fun _ => ()) <$> (Scan.char '#' *> Scan.run isCommentChar)

/-- What may follow the content of a line: blanks, a comment, and the end of line or text. -/
def lineRest : Scan Unit := do
  spaces
  let _ ← Scan.maybe comment
  newline <|> Scan.ending

/-- Skip blanks, line ends, and comments that end with their line. -/
def gap : Scan Unit :=
  let step : Scan Unit :=
    ((fun _ => ()) <$> Scan.run1 isSpace) <|> newline <|> (comment *> newline)
  (fun _ => ()) <$> Scan.many step

end TheoryScript.Toml
