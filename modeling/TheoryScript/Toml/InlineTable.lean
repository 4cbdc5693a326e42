/-
Tables between braces.

The key paths of an inline table are carried out in order.  A path leads through tables
only and makes those that are missing; a table on the way is open to additions however
it was written, also when it stood between braces of its own.  What no path may do is to
assign a key twice, or to lead through a value that is no table.  Once the braces around
all of it are closed, nothing can be added from outside.
-/
import TheoryScript.Toml.Entries
import TheoryScript.Toml.Key
import TheoryScript.Toml.Value

namespace TheoryScript.Toml

namespace Table

/-- Assign a value to a key that has none, in the table that a path of keys leads to. -/
def assignAt : List String → String → Value → Table → Option Table
  | [], key, v, table =>
      Entries.alter key (fun
        | none => some v
        | some _ => none) table
  | parent :: path, key, v, table =>
      Entries.alter parent (fun
        | none => (assignAt path key v []).map .table
        | some (.table inner) => (assignAt path key v inner).map .table
        | some _ => none) table

/-- The table of several assignments, carried out in order. -/
def ofAssignments? (pairs : List (KeyPath × Value)) : Option Table :=
  pairs.foldlM (fun table pair => assignAt pair.1.parents pair.1.key pair.2 table) []

end Table

end TheoryScript.Toml
