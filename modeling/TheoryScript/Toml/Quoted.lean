/-
Strings.

A basic string stands between double quotes and has escapes; a literal string stands
between single quotes and has none.  Either kind may run over several lines between
three quotes: then a line end right after the opening is dropped, line ends become line
feeds, and one or two quotes may stand inside, also right before the closing three.
-/
import TheoryScript.Toml.Space

namespace TheoryScript.Toml

/-! ### Characters that stand for themselves -/

/-- A character that stands for itself in a basic string. -/
def isBasicChar (c : Char) : Bool :=
  isCommentChar c && c != '"' && c != '\\'

/-- A character that stands for itself in a literal string. -/
def isLiteralChar (c : Char) : Bool :=
  isCommentChar c && c != '\x27'

/-! ### Escapes -/

/-- The value of a hexadecimal digit. -/
def hexDigit? (c : Char) : Option Nat :=
  if c.isDigit then some (c.toNat - '0'.toNat)
  else if 'a' ≤ c && c ≤ 'f' then some (c.toNat - 'a'.toNat + 10)
  else if 'A' ≤ c && c ≤ 'F' then some (c.toNat - 'A'.toNat + 10)
  else none

/-- The number that digits stand for, the most significant digit first. -/
def ofDigits (base : Nat) (digits : List Nat) : Nat :=
  digits.foldl (fun value digit => value * base + digit) 0

/-- Take exactly `count` hexadecimal digits. -/
def hexDigits : Nat → Scan (List Nat)
  | 0 => pure []
  | count + 1 => do
      let digit ← StateT.lift (hexDigit? (← Scan.satisfy fun _ => true))
      return digit :: (← hexDigits count)

/-- The character of a scalar value, given by hexadecimal digits; surrogates are none. -/
def unicodeEscape (count : Nat) : Scan Char := do
  let code := ofDigits 16 (← hexDigits count)
  if code.isValidChar then return Char.ofNat code else failure

/-- What stands after the backslash of an escape. -/
def escape : Scan Char := do
  match ← Scan.satisfy fun _ => true with
  | 'b' => return '\x08'
  | 'f' => return '\x0c'
  | 'n' => return '\n'
  | 'r' => return '\r'
  | 't' => return '\t'
  | '"' => return '"'
  | '\\' => return '\\'
  | 'u' => unicodeEscape 4
  | 'U' => unicodeEscape 8
  | _ => failure

/-! ### Strings on one line -/

/-- A piece of a basic string: a run of plain characters, or an escape. -/
def basicPiece : Scan (List Char) :=
  Scan.run1 isBasicChar <|> ((fun c => [c]) <$> (Scan.char '\\' *> escape))

/-- A basic string on one line. -/
def basicString : Scan String := do
  Scan.char '"'
  let pieces ← Scan.many basicPiece
  Scan.char '"'
  return String.ofList pieces.flatten

/-- A literal string on one line. -/
def literalString : Scan String := do
  Scan.char '\x27'
  let text ← Scan.run isLiteralChar
  Scan.char '\x27'
  return String.ofList text

/-! ### Strings on several lines -/

/-- One or two quotes that another character follows. -/
def innerQuotes (quote : Char) : Scan (List Char)
  | a :: b :: c :: rest =>
      if a == quote && b == quote && c != quote then some ([a, b], c :: rest)
      else if a == quote && b != quote then some ([a], b :: c :: rest)
      else none
  | [a, b] => if a == quote && b != quote then some ([a], [b]) else none
  | _ => none

/-- Three closing quotes, with the one or two before them that still belong to the string. -/
def closingQuotes (quote : Char) : Scan (List Char) :=
  let close := Scan.exact (List.replicate 3 quote)
  ((fun _ => [quote, quote]) <$> (Scan.exact [quote, quote] *> close)) <|>
    ((fun _ => [quote]) <$> (Scan.exact [quote] *> close)) <|>
    ((fun _ => []) <$> close)

/-- A line end inside a string is a line feed. -/
def lineFeed : Scan (List Char) :=
  (fun _ => ['\n']) <$> newline

/-- A backslash at the end of a line, which hides all blanks and line ends after it. -/
def hiddenLineEnd : Scan (List Char) := do
  Scan.char '\\'
  spaces
  newline
  let _ ← Scan.many (((fun _ => ()) <$> Scan.run1 isSpace) <|> newline)
  return []

/-- A string between three quotes, made of pieces. -/
def multiline (quote : Char) (piece : Scan (List Char)) : Scan String := do
  Scan.exact (List.replicate 3 quote)
  let _ ← Scan.maybe newline
  let pieces ← Scan.many (piece <|> innerQuotes quote)
  let last ← closingQuotes quote
  return String.ofList (pieces.flatten ++ last)

/-- A basic string over several lines. -/
def multilineBasicString : Scan String :=
  multiline '"' (hiddenLineEnd <|> basicPiece <|> lineFeed)

/-- A literal string over several lines. -/
def multilineLiteralString : Scan String :=
  multiline '\x27' (Scan.run1 isLiteralChar <|> lineFeed)

/-- A string of any kind. -/
def string : Scan String :=
  multilineBasicString <|> basicString <|> multilineLiteralString <|> literalString

end TheoryScript.Toml
