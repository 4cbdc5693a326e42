/-
Reading from a sequence of characters.

A reader takes characters from the front of what is left and either fails or gives a
value.  Failing gives nothing back, so an alternative starts where the failed reader
did.  Repetition ends where its reader fails or takes nothing, so it always ends.
-/
namespace TheoryScript.Toml

/-- A reader: from the characters that are left to a value and those left after it. -/
abbrev Scan := StateT (List Char) Option

namespace Scan

/-! ### Single characters -/

/-- The next character, left where it is. -/
def peek? : Scan (Option Char) :=
  fun cs => some (cs.head?, cs)

/-- Take one character of a class. -/
def satisfy (p : Char → Bool) : Scan Char
  | [] => none
  | c :: rest => if p c then some (c, rest) else none

/-- Take one given character. -/
def char (c : Char) : Scan Unit :=
  (fun _ => ()) <$> satisfy (· == c)

/-- Take the given characters. -/
def exact (text : List Char) : Scan Unit :=
  fun cs => (text.isPrefixOf? cs).map fun rest => ((), rest)

/-- Nothing may be left. -/
def ending : Scan Unit
  | [] => some ((), [])
  | _ :: _ => none

/-! ### Runs -/

/-- Take all characters of a class up to the first that is not in it. -/
def run (p : Char → Bool) : Scan (List Char) :=
  fun cs => some (cs.takeWhile p, cs.dropWhile p)

/-- Take a run of at least one character. -/
def run1 (p : Char → Bool) : Scan (List Char) := do
  let first ← satisfy p
  return first :: (← run p)

/-- The digits of a class, where single underscores may stand between two of them. -/
def underscored (isDigit : Char → Bool) : List Char → List Char × List Char
  | [] => ([], [])
  | c :: rest =>
      if isDigit c then
        let (digits, left) := underscored isDigit rest
        (c :: digits, left)
      else if c == '_' && rest.head?.any isDigit then underscored isDigit rest
      else ([], c :: rest)

/-- Take at least one digit of a class, with single underscores between digits. -/
def digits1 (isDigit : Char → Bool) : Scan (List Char) := do
  let first ← satisfy isDigit
  return first :: (← fun cs => some (underscored isDigit cs))

/-! ### Repetition and choice -/

/-- What a reader gives, or nothing where it fails. -/
def maybe {α : Type} (p : Scan α) : Scan (Option α) :=
  (some <$> p) <|> pure none

/-- The values of a reader applied again and again, and what is left then. -/
def repeated {α : Type} (p : Scan α) (cs : List Char) : List α × List Char :=
  match p cs with
  | none => ([], cs)
  | some (a, rest) =>
      if rest.length < cs.length then
        let (more, left) := repeated p rest
        (a :: more, left)
      else ([], cs)
termination_by cs.length

/-- Apply a reader as often as it takes something. -/
def many {α : Type} (p : Scan α) : Scan (List α) :=
  fun cs => some (repeated p cs)

/-- One or more values with a separator between neighbours. -/
def sepBy1 {α : Type} (p : Scan α) (separator : Scan Unit) : Scan (List α) := do
  let first ← p
  return first :: (← many (separator *> p))

/-- The characters that a reader takes, beside what it gives. -/
def taken {α : Type} (p : Scan α) : Scan (List Char × α) :=
  fun cs => (p cs).map fun (a, rest) => ((cs.take (cs.length - rest.length), a), rest)

end Scan

end TheoryScript.Toml
