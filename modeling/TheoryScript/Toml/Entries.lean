/-
Keys with what stands at them, in written order.

Tables are lists of entries both while they are read and when they are finished.  A
change at a key leaves every other entry where it is, so the written order stays.
-/
namespace TheoryScript.Toml

/-- Keys with what stands at them, in written order. -/
abbrev Entries (α : Type) := List (String × α)

namespace Entries

variable {α : Type}

/-- Change what stands at a key; a key that was absent comes last. -/
def alter (key : String) (f : Option α → Option α) : Entries α → Option (Entries α)
  | [] => (f none).map fun found => [(key, found)]
  | (k, found) :: rest =>
      if k = key then (f (some found)).map fun changed => (k, changed) :: rest
      else (alter key f rest).map ((k, found) :: ·)

/-- The entries without a key. -/
def without (key : String) (entries : Entries α) : Entries α :=
  entries.filter fun entry => entry.1 != key

end Entries

end TheoryScript.Toml
