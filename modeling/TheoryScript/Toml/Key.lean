/-
Keys.

A key is bare, made of ASCII letters, digits, underscores and hyphens, or it is a string
on one line.  Dots join keys to a path, and blanks may stand around each key.
-/
import TheoryScript.Toml.Quoted

namespace TheoryScript.Toml

/-- A character of a bare key. -/
def isBareKeyChar (c : Char) : Bool :=
  c.isAlphanum || c == '_' || c == '-'

/-- One key. -/
def simpleKey : Scan String :=
  basicString <|> literalString <|> (String.ofList <$> Scan.run1 isBareKeyChar)

/-- A path of keys: those on the way, and the one at its end. -/
structure KeyPath where
  /-- The tables on the way to the last key. -/
  parents : List String
  /-- The last key. -/
  key : String
  deriving DecidableEq, Repr

/-- A path has fewer keys than this. -/
def maxPathLength : Nat := 128

/-- The path of a first key and the keys that follow it. -/
def KeyPath.ofKeys (first : String) : List String → KeyPath
  | [] => ⟨[], first⟩
  | second :: rest =>
      let path := ofKeys second rest
      ⟨first :: path.parents, path.key⟩

/-- Keys joined by dots. -/
def keyPath : Scan KeyPath := do
  let padded : Scan String := spaces *> simpleKey <* spaces
  match ← Scan.sepBy1 padded (Scan.char '.') with
  | [] => failure
  | first :: rest =>
      if rest.length + 1 < maxPathLength then return .ofKeys first rest else failure

end TheoryScript.Toml
