/-
Characters spelled by their code points.

A character that must not be written as it is can be spelled with its code point in
hexadecimal: with any number of digits between braces, or, for a code point below 256,
with exactly two digits.
-/
namespace TheoryScript.Text

/-- The hexadecimal digits of a character's code point. -/
def codeDigits (c : Char) : List Char :=
  Nat.toDigits 16 c.toNat

/-- A character by its code point, in hexadecimal digits between braces. -/
def codePoint (c : Char) : String :=
  "\\u\x7b" ++ String.ofList (codeDigits c) ++ "\x7d"

/-- A character by its code point, in two hexadecimal digits. -/
def codeByte (c : Char) : String :=
  let digits := codeDigits c
  "\\x" ++ String.ofList (List.replicate (2 - digits.length) '0' ++ digits)

end TheoryScript.Text
