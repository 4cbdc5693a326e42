/-
Sets of names in canonical order.

A set is written as the strictly increasing list of its members, by code point, so two
lists with the same members have the same canonical form.  Insertion keeps the order and
drops a name that is already there; `sorted` inserts every name of a list.
-/
namespace TheoryScript.Names

/-- Put a name in its place, unless it is there already. -/
def insert (name : String) : List String → List String
  | [] => [name]
  | first :: rest =>
      if name = first then first :: rest
      else if name < first then name :: first :: rest
      else first :: insert name rest

/-- The distinct members of a list, in increasing order. -/
def sorted (names : List String) : List String :=
  names.foldr insert []

/-! ### Members -/

@[simp] theorem mem_insert {a name : String} {names : List String} :
    a ∈ insert name names ↔ a = name ∨ a ∈ names := by
  induction names with
  | nil => simp [insert]
  | cons first rest ih =>
      unfold insert
      split
      · rename_i h
        simp [h]
      · split
        · simp
        · simp only [List.mem_cons, ih]
          grind

/-- Sorting keeps exactly the members. -/
@[simp] theorem mem_sorted {a : String} {names : List String} : a ∈ sorted names ↔ a ∈ names := by
  induction names with
  | nil => simp [sorted]
  | cons name rest ih =>
      have hfold : sorted (name :: rest) = insert name (sorted rest) := rfl
      rw [hfold, mem_insert, ih, List.mem_cons]

end TheoryScript.Names
