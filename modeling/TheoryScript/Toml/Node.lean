/-
Tables while a document is read.

A table comes into being in one of three ways: under a header of its own, on the way to
the table of another header, or on the way of a dotted key.  Which one decides what may
still be added: a header may take over a table that came about on the way to another,
once; a dotted key may only add to tables that dotted keys made, though it may pass
through a table that came about on the way to a header.  A sequence of headed tables is
entered through its latest one.  Every rule that is broken makes the document invalid,
as does a key that is assigned twice.
-/
import TheoryScript.Toml.Entries
import TheoryScript.Toml.Key
import TheoryScript.Toml.Value

namespace TheoryScript.Toml

/-- How a table came into being. -/
inductive TableForm where
  /-- Under a header of its own. -/
  | headed
  /-- On the way to the table of another header. -/
  | implied
  /-- On the way of a dotted key. -/
  | dotted
  deriving DecidableEq, Repr

/-- What stands at a key while a document is read. -/
inductive Node where
  /-- A value, closed to additions. -/
  | value (v : Value)
  /-- A table, with how it came into being. -/
  | table (form : TableForm) (entries : List (String × Node))
  /-- A sequence of headed tables: those before the latest, and the latest. -/
  | tables (earlier : List (List (String × Node))) (latest : List (String × Node))
  deriving Repr

/-- The keys of a table that is being read, in written order. -/
abbrev Nodes := Entries Node

namespace Nodes

/-! ### Following a path -/

/-- Change the table that a header's path leads to, making the tables that are missing. -/
def within : List String → (Nodes → Option Nodes) → Nodes → Option Nodes
  | [], f, entries => f entries
  | key :: path, f, entries =>
      entries.alter key fun
        | none => (within path f []).map (.table .implied)
        | some (.table form inner) => (within path f inner).map (.table form)
        | some (.tables earlier latest) => (within path f latest).map (.tables earlier)
        | some (.value _) => none

/-! ### Headers -/

/--
Open the table of a header.  A table that so far was only implied is taken over with what
it holds, and moves behind the other keys of its parent.
-/
def openTable (path : KeyPath) : Nodes → Option Nodes :=
  within path.parents fun entries =>
    match entries.lookup path.key with
    | none => some (entries ++ [(path.key, .table .headed [])])
    | some (.table .implied inner) =>
        some (entries.without path.key ++ [(path.key, .table .headed inner)])
    | some (.table .headed _) => none
    | some (.table .dotted _) => none
    | some (.tables _ _) => none
    | some (.value _) => none

/-- Open one more table of a sequence of headed tables. -/
def openNext (path : KeyPath) : Nodes → Option Nodes :=
  within path.parents fun entries =>
    entries.alter path.key fun
      | none => some (.tables [] [])
      | some (.tables earlier latest) => some (.tables (earlier ++ [latest]) [])
      | some (.table _ _) => none
      | some (.value _) => none

/-! ### Assignments -/

/-- Assign a value to a key that has none. -/
def assignKey (key : String) (v : Value) (entries : Nodes) : Option Nodes :=
  entries.alter key fun
    | none => some (.value v)
    | some _ => none

/-- Assign a value to the end of a dotted key. -/
def assignAt : List String → String → Value → Nodes → Option Nodes
  | [], key, v, entries => entries.assignKey key v
  | parent :: path, key, v, entries =>
      entries.alter parent fun
        | none => (assignAt path key v []).map (.table .dotted)
        | some (.table .headed _) => none
        | some (.table .dotted inner) => (assignAt path key v inner).map (.table .dotted)
        | some (.table .implied inner) =>
            if path.isEmpty then none else (assignAt path key v inner).map (.table .implied)
        | some (.tables earlier latest) =>
            if path.isEmpty then none else (assignAt path key v latest).map (.tables earlier)
        | some (.value _) => none

/-- Assign a value to a key path. -/
def assign (path : KeyPath) (v : Value) : Nodes → Option Nodes :=
  assignAt path.parents path.key v

end Nodes

/-! ### Finished tables -/

mutual

/-- A node as a value, when nothing more can be added. -/
def Node.toValue : Node → Value
  | .value v => v
  | .table _ entries => .table (Nodes.toTable entries)
  | .tables earlier latest => .array .headed (Nodes.toTables earlier ++ [.table (Nodes.toTable latest)])

/-- Entries as a finished table. -/
def Nodes.toTable : List (String × Node) → Table
  | [] => []
  | (key, node) :: rest => (key, node.toValue) :: Nodes.toTable rest

/-- Several tables as values. -/
def Nodes.toTables : List (List (String × Node)) → List Value
  | [] => []
  | entries :: rest => .table (Nodes.toTable entries) :: Nodes.toTables rest

end

end TheoryScript.Toml
