/-
The name check finds the first offender.

The check asks the atom of a statement first, and then its distinct variables, which are
gathered twice: for each term, and once more for the whole statement.  It stops at the first
name that is at fault.  A name that has passed would pass again, so asking it once is as good
as asking it everywhere (`findSome?_eraseDups`), and what the check finds is the first offender
among all occurrences of variables, from left to right (`findSome?_vars`).
-/
import TheoryScript.Proofs.Renaming

namespace TheoryScript

/-! ### Asking each name once -/

section

variable {α β : Type} {f : α → Option β}

theorem findSome?_filter {keep : α → Bool} {xs : List α}
    (h : ∀ x ∈ xs, keep x = false → f x = none) :
    (xs.filter keep).findSome? f = xs.findSome? f := by
  induction xs with
  | nil => rfl
  | cons x rest ih =>
      obtain ⟨hfirst, hrest⟩ := List.forall_mem_cons.mp h
      rw [List.filter_cons, List.findSome?_cons]
      by_cases hkeep : keep x = true
      · rw [if_pos hkeep, List.findSome?_cons, ih hrest]
      · rw [if_neg hkeep, ih hrest, hfirst (by simpa using hkeep)]

/-- The first answer does not change when every member is asked only once. -/
theorem findSome?_eraseDups [BEq α] [LawfulBEq α] (f : α → Option β) :
    ∀ xs : List α, xs.eraseDups.findSome? f = xs.findSome? f
  | [] => rfl
  | x :: rest => by
      rw [List.eraseDups_cons, List.findSome?_cons, List.findSome?_cons,
        findSome?_eraseDups f (rest.filter _)]
      cases hx : f x with
      | some answer => rfl
      | none =>
          refine findSome?_filter fun y _ hy => ?_
          have hsame : y = x := by simpa using hy
          rw [hsame, hx]
termination_by xs => xs.length
decreasing_by exact Nat.lt_succ_of_le (List.length_filter_le _ rest)

theorem findSome?_flatMap_congr {ι : Type} {g h : ι → List α} {is : List ι}
    (hsame : ∀ i ∈ is, (g i).findSome? f = (h i).findSome? f) :
    (is.flatMap g).findSome? f = (is.flatMap h).findSome? f := by
  induction is with
  | nil => rfl
  | cons i rest ih =>
      obtain ⟨hfirst, hrest⟩ := List.forall_mem_cons.mp hsame
      rw [List.flatMap_cons, List.flatMap_cons, List.findSome?_append, List.findSome?_append,
        hfirst, ih hrest]

end

/-- **The distinct variables and all their occurrences give the same first answer.** -/
theorem Statement.findSome?_vars {β : Type} (f : String → Option β) (s : Statement) :
    s.vars.findSome? f = s.leaves.findSome? f := by
  rw [vars, findSome?_eraseDups, leaves]
  exact findSome?_flatMap_congr fun t _ => findSome?_eraseDups f t.leaves

/-! ### Offences -/

/-- What is wrong with a variable: its own name, or else that an atom is called the same. -/
inductive Offence (atoms : List String) (name : String) : EncodingError → Prop
  | invalid {fault : Smt.SymbolFault} (h : Smt.symbolFault? name = some fault) :
      Offence atoms name (.invalidSymbol name fault.text)
  | clash (hvalid : Smt.symbolFault? name = none) (hmem : name ∈ atoms) :
      Offence atoms name (.invalidSymbol name "it also names a statement atom")

theorem variableError?_eq_some_iff {atoms : List String} {name : String} {error : EncodingError} :
    variableError? atoms name = some error ↔ Offence atoms name error := by
  unfold variableError? variableFault?
  cases hfault : Smt.symbolFault? name with
  | some fault =>
      constructor
      · intro h
        cases h
        exact .invalid hfault
      · intro h
        cases h with
        | invalid h => rw [Option.some.inj (hfault.symm.trans h)]; rfl
        | clash hvalid _ => simp [hfault] at hvalid
  | none =>
      constructor
      · intro h
        by_cases hmem : name ∈ atoms
        · simp only [List.contains_iff_mem, hmem, if_true, Option.map_some] at h
          cases h
          exact .clash hfault hmem
        · simp [hmem] at h
      · intro h
        cases h with
        | invalid h => simp [hfault] at h
        | clash _ hmem => simp [hmem, EncodingError.ofSymbolFault, Smt.SymbolFault.text]

/--
The error is about the atom, if that is invalid, and else about the first occurrence of a
variable that is at fault.
-/
inductive Statement.FirstOffender (s : Statement) (atoms : List String) : EncodingError → Prop
  | atom {fault : Smt.SymbolFault} (h : Smt.symbolFault? s.atom = some fault) :
      s.FirstOffender atoms (.invalidSymbol s.atom fault.text)
  | leaf {before after : List String} {name : String} {error : EncodingError}
      (hatom : Smt.symbolFault? s.atom = none) (hleaves : s.leaves = before ++ name :: after)
      (hbefore : ∀ n ∈ before, Smt.symbolFault? n = none ∧ n ∉ atoms)
      (hname : Offence atoms name error) : s.FirstOffender atoms error

/-! ### The check as a scan of all occurrences -/

/-- **The check asks the atom, and then every occurrence of a variable.** -/
theorem Statement.nameError?_eq_scan (s : Statement) (atoms : List String) :
    s.nameError? atoms
      = (TheoryScript.nameError? s.atom).or (s.leaves.findSome? (variableError? atoms)) := by
  rw [Statement.nameError?, findSome?_vars]
  cases TheoryScript.nameError? s.atom with
  | some error => rfl
  | none => rfl

theorem Statement.nameError?_eq_some_iff {s : Statement} {atoms : List String}
    {error : EncodingError} :
    s.nameError? atoms = some error ↔ s.FirstOffender atoms error := by
  rw [nameError?_eq_scan, TheoryScript.nameError?]
  cases hatom : Smt.symbolFault? s.atom with
  | some fault =>
      constructor
      · intro h
        cases h
        exact .atom hatom
      · intro h
        cases h with
        | atom h => rw [Option.some.inj (hatom.symm.trans h)]; rfl
        | leaf hvalid _ _ _ => simp [hatom] at hvalid
  | none =>
      rw [Option.map_none, Option.none_or, List.findSome?_eq_some_iff]
      constructor
      · rintro ⟨before, name, after, hleaves, hname, hbefore⟩
        exact .leaf hatom hleaves (fun n hn => variableError?_eq_none_iff.mp (hbefore n hn))
          (variableError?_eq_some_iff.mp hname)
      · intro h
        cases h with
        | atom h => simp [hatom] at h
        | @leaf before after name _ _ hleaves hbefore hname =>
            exact ⟨before, name, after, hleaves, variableError?_eq_some_iff.mpr hname,
              fun n hn => variableError?_eq_none_iff.mpr (hbefore n hn)⟩

/--
**The name check finds the first offender.**  A statement passes when its atom is valid and
every occurrence of a variable, at any depth, is valid and no atom of the batch.  Otherwise
the error is about the first name that is not, and a name that is both invalid and an atom is
reported as invalid.  The names of operations and constants have no say, and the result is
that of asking every occurrence, repeated or not.
-/
theorem name_check_finds_first_offender (s : Statement) (atoms : List String) :
    (s.nameError? atoms = none ↔
      Smt.symbolFault? s.atom = none ∧
        ∀ name ∈ s.leaves, Smt.symbolFault? name = none ∧ name ∉ atoms) ∧
    (∀ error, s.nameError? atoms = some error ↔ s.FirstOffender atoms error) ∧
    (∀ onOperation onConstant : String → String,
      (s.rename { onOperation, onConstant }).nameError? atoms = s.nameError? atoms) ∧
    s.nameError? atoms
      = (nameError? s.atom).or (s.leaves.findSome? (variableError? atoms)) := by
  refine ⟨Statement.nameError?_eq_none_iff, fun error => Statement.nameError?_eq_some_iff, ?_,
    Statement.nameError?_eq_scan s atoms⟩
  intro onOperation onConstant
  have hleaves : (s.rename { onOperation, onConstant }).leaves = s.leaves := by
    rw [Statement.leaves_rename]
    exact List.map_id s.leaves
  have hatom : (s.rename { onOperation, onConstant }).atom = s.atom := rfl
  rw [Statement.nameError?_eq_scan, Statement.nameError?_eq_scan, hleaves, hatom]

end TheoryScript
