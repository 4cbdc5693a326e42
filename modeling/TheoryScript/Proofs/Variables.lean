/-
Counting and listing variables.

A term is gone over twice, once to count its variable leaves and once to list their names, and
both are held here against the list of all its nodes.  The names are then listed once each,
and for a statement the distinct names of its terms are gathered and made distinct again.
What comes out is the list of all occurrences with every name kept where it is first seen.

A list is made distinct from the left: one more member is dropped if it was seen before, and
stands at the end if it was not (`eraseDups_concat`).  Everything about the order of first
occurrences is an induction along that equation.
-/
import Mathlib.Data.List.Induction
import Mathlib.Data.List.Perm.Subperm
import Mathlib.Data.List.Sort
import TheoryScript.Proofs.Rules.Difference

namespace TheoryScript

/-! ### Members where they are first seen -/

section

variable {α : Type} [DecidableEq α]

/-- The distinct members of a list, in the order in which they are first seen there. -/
structure FirstSeen (seen names : List α) : Prop where
  /-- No member is listed twice. -/
  nodup : names.Nodup
  /-- Nothing but the members is listed, and all of them are. -/
  mem_iff : ∀ a, a ∈ names ↔ a ∈ seen
  /-- What is listed earlier occurs earlier for the first time. -/
  inOrder : names.Pairwise fun a b => seen.idxOf a < seen.idxOf b

/-- One more member changes the distinct members only if it is new, and then it is the last. -/
theorem eraseDups_concat (xs : List α) (a : α) :
    (xs ++ [a]).eraseDups = if a ∈ xs then xs.eraseDups else xs.eraseDups ++ [a] := by
  rw [List.eraseDups_append]
  by_cases ha : a ∈ xs
  · rw [if_pos ha]
    simp [List.removeAll, ha]
  · rw [if_neg ha]
    simp [List.removeAll, ha, List.eraseDups_cons]

theorem firstSeen_eraseDups (xs : List α) : FirstSeen xs xs.eraseDups := by
  induction xs using List.reverseRecOn with
  | nil => exact ⟨List.nodup_nil, fun _ => Iff.rfl, List.Pairwise.nil⟩
  | append_singleton xs a ih =>
      -- the members of `xs` are first seen where they were before
      have hkept : xs.eraseDups.Pairwise fun b c => (xs ++ [a]).idxOf b < (xs ++ [a]).idxOf c := by
        refine ih.inOrder.imp_of_mem fun {b c} hb hc hlt => ?_
        rw [List.idxOf_append_of_mem (List.mem_eraseDups.mp hb),
          List.idxOf_append_of_mem (List.mem_eraseDups.mp hc)]
        exact hlt
      rw [eraseDups_concat]
      by_cases ha : a ∈ xs
      · rw [if_pos ha]
        refine ⟨ih.nodup, fun b => ?_, hkept⟩
        rw [ih.mem_iff, List.mem_append, List.mem_singleton]
        exact ⟨Or.inl, fun h => h.elim id fun hb => hb ▸ ha⟩
      · rw [if_neg ha]
        refine ⟨?_, fun b => ?_, ?_⟩
        · rw [← List.concat_eq_append]
          exact ih.nodup.concat (mt List.mem_eraseDups.mp ha)
        · rw [List.mem_append, List.mem_append, ih.mem_iff]
        · refine List.pairwise_append.mpr ⟨hkept, List.pairwise_singleton _ _, ?_⟩
          intro b hb c hc
          have hbxs : b ∈ xs := List.mem_eraseDups.mp hb
          rw [List.mem_singleton.mp hc, List.idxOf_append_of_mem hbxs,
            List.idxOf_append_of_notMem ha]
          exact Nat.lt_of_lt_of_le (List.idxOf_lt_length_of_mem hbxs) (Nat.le_add_right _ _)

/-- **There is one way to list members where they are first seen.** -/
theorem firstSeen_iff {seen names : List α} : FirstSeen seen names ↔ names = seen.eraseDups := by
  have hdistinct := firstSeen_eraseDups seen
  refine ⟨fun h => ?_, fun h => h ▸ hdistinct⟩
  have : Std.Irrefl fun a b => seen.idxOf a < seen.idxOf b := ⟨fun a => Nat.lt_irrefl _⟩
  have : Std.Antisymm fun a b => seen.idxOf a < seen.idxOf b :=
    ⟨fun a b hab hba => absurd hab (Nat.lt_asymm hba)⟩
  refine h.inOrder.eq_of_mem_iff hdistinct.inOrder fun a => ?_
  rw [h.mem_iff, hdistinct.mem_iff]

theorem FirstSeen.length_le {seen names : List α} (h : FirstSeen seen names) :
    names.length ≤ seen.length :=
  (h.nodup.subperm fun a ha => (h.mem_iff a).mp ha).length_le

/-- As many names are listed as were seen exactly when none was seen twice. -/
theorem FirstSeen.length_eq_iff {seen names : List α} (h : FirstSeen seen names) :
    names.length = seen.length ↔ seen.Nodup := by
  have hsubperm := h.nodup.subperm fun a ha => (h.mem_iff a).mp ha
  constructor
  · intro hlength
    exact (hsubperm.perm_of_length_le hlength.ge).nodup_iff.mp h.nodup
  · intro hseen
    have hback := hseen.subperm fun a ha => (h.mem_iff a).mpr ha
    exact Nat.le_antisymm hsubperm.length_le hback.length_le

/-! ### Lists that are made distinct in parts -/

theorem eraseDups_eraseDups (xs : List α) : xs.eraseDups.eraseDups = xs.eraseDups := by
  induction xs using List.reverseRecOn with
  | nil => rfl
  | append_singleton xs a ih =>
      rw [eraseDups_concat]
      by_cases ha : a ∈ xs
      · rw [if_pos ha, ih]
      · rw [if_neg ha, eraseDups_concat, if_neg (mt List.mem_eraseDups.mp ha), ih]

theorem eraseDups_append_left (xs ys : List α) :
    (xs.eraseDups ++ ys).eraseDups = (xs ++ ys).eraseDups := by
  induction ys using List.reverseRecOn with
  | nil => rw [List.append_nil, List.append_nil, eraseDups_eraseDups]
  | append_singleton ys a ih =>
      have hmem : a ∈ xs.eraseDups ++ ys ↔ a ∈ xs ++ ys := by
        rw [List.mem_append, List.mem_append, List.mem_eraseDups]
      rw [← List.append_assoc, ← List.append_assoc, eraseDups_concat, eraseDups_concat, ih]
      simp only [hmem]

theorem eraseDups_append_right (xs ys : List α) :
    (xs ++ ys.eraseDups).eraseDups = (xs ++ ys).eraseDups := by
  induction ys using List.reverseRecOn with
  | nil => rfl
  | append_singleton ys a ih =>
      rw [← List.append_assoc xs ys, eraseDups_concat ys, eraseDups_concat (xs ++ ys)]
      by_cases ha : a ∈ ys
      · rw [if_pos ha, if_pos (List.mem_append_right xs ha), ih]
      · have hmem : a ∈ xs ++ ys.eraseDups ↔ a ∈ xs ++ ys := by
          rw [List.mem_append, List.mem_append, List.mem_eraseDups]
        rw [if_neg ha, ← List.append_assoc, eraseDups_concat, ih]
        simp only [hmem]

/-- **Making the parts distinct first changes nothing.** -/
theorem eraseDups_flatMap {ι : Type} (f : ι → List α) (is : List ι) :
    (is.flatMap fun i => (f i).eraseDups).eraseDups = (is.flatMap f).eraseDups := by
  induction is with
  | nil => rfl
  | cons i rest ih =>
      rw [List.flatMap_cons, List.flatMap_cons, eraseDups_append_left, ← eraseDups_append_right,
        ih, eraseDups_append_right]

end

/-! ### The variables among the nodes -/

namespace Term

/-- The name of a node that is a variable. -/
def varName? : Term → Option String
  | var name => some name
  | app _ _ => none
  | const _ => none

/-- The names of the variables among the nodes, parents before children and left to right. -/
def occurrences (t : Term) : List String :=
  t.nodes.filterMap varName?

theorem leaves_eq_occurrences (t : Term) : t.leaves = t.occurrences := by
  induction t using Term.induct with
  | hvar name => rfl
  | hconst value => rfl
  | happ operation children ih =>
      rw [occurrences, nodes, List.filterMap_cons, varName?, nodesAll_eq_flatMap,
        List.filterMap_flatMap, leaves, leavesAll_eq_flatMap]
      exact List.flatMap_congr ih

/-- Both recursions see the same leaves. -/
theorem variableCount_eq_length_occurrences (t : Term) :
    t.variableCount = t.occurrences.length := by
  rw [variableCount_eq_length_leaves, leaves_eq_occurrences]

theorem firstSeen_vars (t : Term) : FirstSeen t.occurrences t.vars := by
  rw [vars, leaves_eq_occurrences]
  exact firstSeen_eraseDups t.occurrences

end Term

/-- The names of all variables among the nodes of a statement, term by term. -/
def Statement.occurrences (s : Statement) : List String :=
  (s.elements.flatMap Element.terms ++ [s.right]).flatMap Term.occurrences

theorem Statement.vars_eq_eraseDups (s : Statement) : s.vars = s.occurrences.eraseDups := by
  have hvars : Term.vars = fun t => t.occurrences.eraseDups := by
    funext t
    rw [Term.vars, Term.leaves_eq_occurrences]
  rw [vars, hvars, eraseDups_flatMap, terms, occurrences]

/--
**Variables are counted and listed as they occur.**  The count of a term is the number of its
occurrences of variables, and its list has every name that occurs, once, in the order of first
occurrences; so the list is never longer than the count, and as long exactly when no name
occurs twice.  The list of a statement, made distinct for each term and then once more, is the
only list that has the names of all its occurrences where they are first seen.
-/
theorem variables_are_listed_where_first_seen :
    (∀ t : Term,
      t.variableCount = t.occurrences.length ∧ FirstSeen t.occurrences t.vars ∧
        t.vars.length ≤ t.variableCount ∧
        (t.vars.length = t.variableCount ↔ t.occurrences.Nodup)) ∧
    ∀ (s : Statement) (names : List String), FirstSeen s.occurrences names ↔ names = s.vars := by
  refine ⟨fun t => ?_, fun s names => ?_⟩
  · have hcount := t.variableCount_eq_length_occurrences
    have hvars := t.firstSeen_vars
    refine ⟨hcount, hvars, ?_, ?_⟩
    · rw [hcount]
      exact hvars.length_le
    · rw [hcount]
      exact hvars.length_eq_iff
  · rw [s.vars_eq_eraseDups]
    exact firstSeen_iff

-- the right-hand term brings `x` and `y` again, in the other order
example :
    let s : Statement :=
      ⟨"a", "diff", [⟨[.app "-" [.var "y", .app "-" [.var "x", .var "y"]]]⟩], "<=",
        .app "-" [.var "x", .var "y"]⟩
    s.occurrences = ["y", "x", "y", "x", "y"] ∧ s.vars = ["y", "x"] := by
  decide +kernel

end TheoryScript
