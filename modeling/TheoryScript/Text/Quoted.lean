/-
Texts quoted in messages.

A quoted text stands between double quotes on one line.  A quote, a backslash and the
common control characters are escaped by a letter; any other character that would not be
seen as one of its own is escaped by its code point.
-/
import TheoryScript.Text.Escape
import TheoryScript.Text.Extender
import TheoryScript.Text.Ignorable
import TheoryScript.Text.Unprintable

namespace TheoryScript.Text

/-- The halfwidth sound marks, which extend by property but have a place of their own. -/
def isHalfwidthSoundMark (c : Char) : Bool :=
  c == '\uff9e' || c == '\uff9f'

/-- Whether a character would not be seen as one of its own. -/
def isHidden (c : Char) : Bool :=
  (isExtender c && !isHalfwidthSoundMark c) || isIgnorable c || isUnprintable c

/-- A character inside quotes. -/
def quotedChar (c : Char) : String :=
  match c with
  | '"' => "\\\""
  | '\\' => "\\\\"
  | '\n' => "\\n"
  | '\r' => "\\r"
  | '\t' => "\\t"
  | '\x00' => "\\0"
  | c => if isHidden c then codePoint c else c.toString

/-- A text between quotes. -/
def quoted (text : String) : String :=
  "\"" ++ String.join (text.toList.map quotedChar) ++ "\""

end TheoryScript.Text
