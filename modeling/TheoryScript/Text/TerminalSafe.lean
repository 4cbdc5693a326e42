/-
Text that cannot steer a terminal.

Some control characters ring a bell, move the cursor or start an escape sequence when a
terminal meets them.  A safe text spells them out: those of ASCII by two hexadecimal
digits, those of the second control block, U+0080 to U+009F, by their code point between
braces.  Line ends, tabs and the other control characters of ASCII stay as they are.
-/
import TheoryScript.Text.Escape

namespace TheoryScript.Text

/-- The bell, the backspace, the form feed, the escape and the delete character. -/
def terminalControls : List Char :=
  ['\x07', '\x08', '\x0c', '\x1b', '\x7f']

/-- A control character of the second block, which terminals may take as escape sequences. -/
def isSecondControl (c : Char) : Bool :=
  0x80 ≤ c.toNat && c.toNat ≤ 0x9F

/-- A character of a safe text. -/
def terminalSafeChar (c : Char) : String :=
  if terminalControls.contains c then codeByte c
  else if isSecondControl c then codePoint c
  else c.toString

/-- The text with every character that would steer a terminal spelled out. -/
def terminalSafe (text : String) : String :=
  String.join (text.toList.map terminalSafeChar)

end TheoryScript.Text
