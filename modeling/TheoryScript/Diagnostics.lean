/-
The record of skipped statements.

A diagnostic is kept for every statement that is skipped, so a missing assertion can be
told apart from a statement that was never in the batch.  Diagnostics stay in the order
in which they were recorded.
-/
import TheoryScript.EncodingError
import TheoryScript.Statement

namespace TheoryScript

/-- Why one statement was skipped. -/
structure Diagnostic where
  /-- The logic that the statement was meant for. -/
  theory : String
  /-- The atom of the statement. -/
  atom : String
  /-- The category of the statement. -/
  category : String
  /-- What is wrong with the statement. -/
  error : EncodingError
  deriving DecidableEq, Repr

/-- The diagnostic for a statement. -/
def Diagnostic.ofStatement (theory : String) (s : Statement) (error : EncodingError) : Diagnostic :=
  { theory, atom := s.atom, category := s.category, error }

/-- The rule that the statement broke. -/
def Diagnostic.kind (d : Diagnostic) : ErrorKind :=
  d.error.kind

/-- Diagnostics in the order in which they were recorded. -/
structure Diagnostics where
  /-- The recorded diagnostics, the earliest first. -/
  toList : List Diagnostic := []
  deriving DecidableEq, Repr

namespace Diagnostics

/-- Nothing recorded yet. -/
def empty : Diagnostics := {}

/-- Record one more diagnostic. -/
def push (ds : Diagnostics) (d : Diagnostic) : Diagnostics :=
  { toList := ds.toList ++ [d] }

/-- How many diagnostics there are. -/
def size (ds : Diagnostics) : Nat :=
  ds.toList.length

/-- Whether nothing was recorded. -/
def isEmpty (ds : Diagnostics) : Bool :=
  ds.toList.isEmpty

/-- The first diagnostic for a statement of this atom. -/
def forAtom? (ds : Diagnostics) (atom : String) : Option Diagnostic :=
  ds.toList.find? (·.atom == atom)

end Diagnostics

end TheoryScript
