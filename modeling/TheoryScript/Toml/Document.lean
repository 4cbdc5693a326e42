/-
Documents.

A document is a sequence of lines; a byte order mark may stand before them.  Its lines
are carried out in order: assignments before the first header go to the document's own
table, later ones to the table that the latest header opened.
-/
import TheoryScript.Toml.Line

namespace TheoryScript.Toml

/-- All lines of a text. -/
def documentLines : Scan (List Line) := do
  let _ ← Scan.maybe (Scan.char '\ufeff')
  let found ← Scan.many line
  Scan.ending
  return found

/-- A document as far as it was read: what it holds, and the path of the open table. -/
structure Draft where
  /-- What the document holds so far. -/
  entries : Nodes := []
  /-- Where assignments go. -/
  place : List String := []

/-- Carry out one line. -/
def Draft.step (d : Draft) : Line → Option Draft
  | .blank => some d
  | .header path =>
      (d.entries.openTable path).map fun entries =>
        { entries, place := path.parents ++ [path.key] }
  | .nextHeader path =>
      (d.entries.openNext path).map fun entries =>
        { entries, place := path.parents ++ [path.key] }
  | .assign path v =>
      (d.entries.within d.place (·.assign path v)).map fun entries => { d with entries }

/-- The table of a document, unless the text is no document. -/
def parse? (text : String) : Option Table := do
  let (found, _) ← documentLines text.toList
  let draft ← found.foldlM Draft.step {}
  return Nodes.toTable draft.entries

end TheoryScript.Toml
