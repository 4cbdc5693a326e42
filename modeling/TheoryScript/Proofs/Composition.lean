/-
What a statement owes to the other statements of its batch.

The verdict on a statement depends on the batch only through the batch's atoms, and only in
the name check: a variable must not be one of them.  So a batch with more atoms can refuse a
statement for a variable that has become an atom, and can do nothing else (`verdict_grow`).
The check stops at the first name that fails, so such a refusal may also take the place of
an error that was there before.

What is said about two batches follows from that.  Batches none of whose variables are atoms
of the other are encoded side by side.  A batch in another order has the same atoms and
therefore the same verdicts.  The header lists its names in canonical order, so it depends on
the sets of names alone.
-/
import TheoryScript.Proofs.Header
import TheoryScript.Proofs.Partition

namespace TheoryScript

/-! ### More atoms -/

section

variable {atoms more : List String}

/-- One name: beside more atoms it fares the same, or it clashes with a new one. -/
theorem variableError?_grow (hsub : ∀ name ∈ atoms, name ∈ more) (name : String) :
    variableError? more name = variableError? atoms name ∨
      name ∈ more ∧ name ∉ atoms ∧
        variableError? more name = some (.ofSymbolFault name .statementAtom) := by
  unfold variableError? variableFault?
  cases Smt.symbolFault? name with
  | some fault => exact Or.inl rfl
  | none =>
      by_cases hatoms : name ∈ atoms
      · refine Or.inl ?_
        simp [hatoms, hsub name hatoms]
      · by_cases hmore : name ∈ more
        · refine Or.inr ⟨hmore, hatoms, ?_⟩
          simp [hmore]
        · refine Or.inl ?_
          simp [hatoms, hmore]

/-- Several names: the first failure is the same one, or a clash with a new atom. -/
theorem findSome?_variableError?_grow (hsub : ∀ name ∈ atoms, name ∈ more)
    (names : List String) :
    names.findSome? (variableError? more) = names.findSome? (variableError? atoms) ∨
      ∃ name ∈ names, name ∈ more ∧ name ∉ atoms ∧
        names.findSome? (variableError? more)
          = some (.ofSymbolFault name .statementAtom) := by
  induction names with
  | nil => exact Or.inl rfl
  | cons name rest ih =>
      rw [List.findSome?_cons, List.findSome?_cons]
      rcases variableError?_grow hsub name with hsame | ⟨hmore, hatoms, hclash⟩
      · rw [hsame]
        cases variableError? atoms name with
        | some error => exact Or.inl rfl
        | none =>
            rcases ih with hrest | ⟨other, hother, hnew⟩
            · exact Or.inl hrest
            · exact Or.inr ⟨other, List.mem_cons_of_mem _ hother, hnew⟩
      · rw [hclash]
        exact Or.inr ⟨name, List.mem_cons_self, hmore, hatoms, rfl⟩

/-- **Beside more atoms a verdict stays, or a variable clashes with a new atom.** -/
theorem Fragment.verdict_grow (f : Fragment) (hsub : ∀ name ∈ atoms, name ∈ more)
    (s : Statement) :
    f.verdict more s = f.verdict atoms s ∨
      ∃ name ∈ s.leaves, name ∈ more ∧ name ∉ atoms ∧
        f.verdict more s = .error (.ofSymbolFault name .statementAtom) := by
  unfold Fragment.verdict Statement.nameError?
  cases nameError? s.atom with
  | some error => exact Or.inl rfl
  | none =>
      rcases findSome?_variableError?_grow hsub s.vars with
        hsame | ⟨name, hname, hmore, hatoms, hclash⟩
      · refine Or.inl ?_
        simp only [hsame]
      · refine Or.inr ⟨name, Statement.mem_vars.mp hname, hmore, hatoms, ?_⟩
        simp only [hclash]

/-- New atoms that are no variables of a statement do not touch its verdict. -/
theorem Fragment.verdict_eq_of_no_clash (f : Fragment) (hsub : ∀ name ∈ atoms, name ∈ more)
    {s : Statement} (hnew : ∀ name ∈ s.leaves, name ∈ more → name ∈ atoms) :
    f.verdict more s = f.verdict atoms s := by
  rcases f.verdict_grow hsub s with hsame | ⟨name, hname, hmore, hatoms, -⟩
  · exact hsame
  · exact absurd (hnew name hname hmore) hatoms

end

/-! ### Batches side by side -/

section

variable {statements others : List Statement}

theorem Statement.atoms_subset (h : ∀ s ∈ statements, ∃ t ∈ others, t.atom = s.atom) :
    ∀ name ∈ Statement.atoms statements, name ∈ Statement.atoms others := by
  intro name hname
  obtain ⟨s, hs, rfl⟩ := Preamble.mem_atoms.mp hname
  exact Preamble.mem_atoms.mpr (h s hs)

namespace Fragment

variable (f : Fragment)

theorem collect_congr {verdict other : Statement → Except EncodingError String}
    (h : ∀ s ∈ statements, verdict s = other s) :
    f.collect statements verdict = f.collect statements other := by
  have hlines := List.map_congr_left fun s hs => congrArg (Statement.lineFor s) (h s hs)
  have hdiagnostics := List.filterMap_congr fun s hs =>
    congrArg (Statement.diagnosticFor? f.theory s) (h s hs)
  have hrecords := List.map_congr_left fun s hs =>
    congrArg (Statement.recordFor f.theory s) (h s hs)
  rw [collect, collect, hlines, hdiagnostics, hrecords]

/-- A batch has the same results inside a larger one, if no variable clashes with a new atom. -/
theorem encodeAll_eq_collect_within {batch : List Statement}
    (hsub : ∀ s ∈ statements, s ∈ batch)
    (hnew : ∀ s ∈ statements, ∀ name ∈ s.leaves, ∀ t ∈ batch, t.atom = name → t ∈ statements) :
    f.encodeAll statements = f.collect statements (f.verdict (Statement.atoms batch)) := by
  have hatoms := Statement.atoms_subset fun s hs => ⟨s, hsub s hs, rfl⟩
  rw [encodeAll_eq_collect]
  refine collect_congr f fun s hs => (f.verdict_eq_of_no_clash hatoms ?_).symm
  intro name hname hmem
  obtain ⟨t, ht, hatom⟩ := Preamble.mem_atoms.mp hmem
  exact Preamble.mem_atoms.mpr ⟨t, hnew s hs name hname t ht hatom, hatom⟩

theorem collect_append (verdict : Statement → Except EncodingError String) :
    let front := f.collect statements verdict
    let back := f.collect others verdict
    f.collect (statements ++ others) verdict
      = { assertions := front.assertions ++ back.assertions
          diagnostics := ⟨front.diagnostics.toList ++ back.diagnostics.toList⟩
          log := front.log ++ back.log } := by
  simp [collect, String.join_append]

end Fragment

end

/--
**A larger batch asserts nothing new, and separate batches are encoded side by side.**  What
is asserted in a batch is asserted with the same constraint in every batch with fewer atoms.
The other way round a verdict stays as it was, whether it was a constraint or an error, unless
a variable of the statement is the atom of a statement that was added; then it is the error
about that name.
-/
theorem batches_grow_and_compose (f : Fragment) (statements others : List Statement) :
    let verdict := fun batch : List Statement => f.verdict (Statement.atoms batch)
    (∀ batch, f.encodeAll batch = f.collect batch (verdict batch)) ∧
    ((∀ s ∈ statements, ∃ t ∈ others, t.atom = s.atom) → ∀ s ∈ statements, s ∈ others →
      (∀ constraint, verdict others s = .ok constraint →
        verdict statements s = .ok constraint) ∧
      (verdict others s = verdict statements s ∨
        ∃ name ∈ s.leaves, (∃ t ∈ others, t.atom = name) ∧ (∀ t ∈ statements, t.atom ≠ name) ∧
          verdict others s
            = .error (.invalidSymbol name "it also names a statement atom"))) ∧
    ((∀ s ∈ statements, ∀ name ∈ s.leaves, ∀ t ∈ others, t.atom ≠ name) →
      (∀ t ∈ others, ∀ name ∈ t.leaves, ∀ s ∈ statements, s.atom ≠ name) →
      let front := f.encodeAll statements
      let back := f.encodeAll others
      f.encodeAll (statements ++ others)
        = { assertions := front.assertions ++ back.assertions
            diagnostics := ⟨front.diagnostics.toList ++ back.diagnostics.toList⟩
            log := front.log ++ back.log }) := by
  intro verdict
  refine ⟨f.encodeAll_eq_collect, fun hatoms s _ _ => ?_, fun hfront hback => ?_⟩
  · have hgrow : verdict others s = verdict statements s ∨ ∃ name ∈ s.leaves,
        (∃ t ∈ others, t.atom = name) ∧ (∀ t ∈ statements, t.atom ≠ name) ∧
          verdict others s
            = .error (.invalidSymbol name "it also names a statement atom") := by
      refine (f.verdict_grow (Statement.atoms_subset hatoms) s).imp_right ?_
      rintro ⟨name, hname, hmore, hnot, hclash⟩
      refine ⟨name, hname, Preamble.mem_atoms.mp hmore, fun t ht hatom => hnot ?_, hclash⟩
      exact Preamble.mem_atoms.mpr ⟨t, ht, hatom⟩
    refine ⟨fun constraint hc => ?_, hgrow⟩
    rcases hgrow with hsame | ⟨name, -, -, -, hclash⟩
    · rw [← hsame, hc]
    · rw [hclash] at hc
      cases hc
  · intro front back
    have hfrontWithin : front = f.collect statements (verdict (statements ++ others)) := by
      refine f.encodeAll_eq_collect_within (fun s hs => List.mem_append_left _ hs) ?_
      intro s hs name hname t ht hatom
      exact (List.mem_append.mp ht).resolve_right fun h => hfront s hs name hname t h hatom
    have hbackWithin : back = f.collect others (verdict (statements ++ others)) := by
      refine f.encodeAll_eq_collect_within (fun t ht => List.mem_append_right _ ht) ?_
      intro t ht name hname s hs hatom
      exact (List.mem_append.mp hs).resolve_left fun h => hback t ht name hname s h hatom
    rw [hfrontWithin, hbackWithin, f.encodeAll_eq_collect]
    exact f.collect_append _

theorem new_atom_refuses_and_separate_batches_join :
    let difference (atom left right : String) : Statement :=
      ⟨atom, "diff", [⟨[.app "-" [.var left, .var right]]⟩], "<=", .const (.int 0)⟩
    let s := difference "a" "x" "y"
    let clashing := [s, difference "x" "u" "v"]
    let apart := [difference "b" "y" "true", difference "c" "y" "x"]
    let verdict := fun batch : List Statement =>
      Fragment.difference.verdict (Statement.atoms batch)
    ((∀ t ∈ [s], ∃ u ∈ clashing, u.atom = t.atom) ∧ s ∈ [s] ∧ s ∈ clashing ∧
      verdict [s] s = .ok "(<= (- x y) 0)" ∧
      ∃ name ∈ s.leaves, (∃ t ∈ clashing, t.atom = name) ∧ (∀ t ∈ [s], t.atom ≠ name) ∧
        verdict clashing s = .error (.invalidSymbol name "it also names a statement atom")) ∧
    (∀ t ∈ [s], ∀ name ∈ t.leaves, ∀ u ∈ apart, u.atom ≠ name) ∧
    (∀ t ∈ apart, ∀ name ∈ t.leaves, ∀ u ∈ [s], u.atom ≠ name) ∧
      (Fragment.difference.encodeAll ([s] ++ apart)).assertions
        = (Fragment.difference.encodeAll [s]).assertions
          ++ (Fragment.difference.encodeAll apart).assertions := by
  intro difference s clashing apart verdict
  have hatoms : ∀ t ∈ [s], ∃ u ∈ clashing, u.atom = t.atom := by decide
  have hs : s ∈ [s] := by decide
  have hmem : s ∈ clashing := by decide
  have hchanged : verdict clashing s ≠ verdict [s] s := by decide
  have hfront : ∀ t ∈ [s], ∀ name ∈ t.leaves, ∀ u ∈ apart, u.atom ≠ name := by decide
  have hback : ∀ t ∈ apart, ∀ name ∈ t.leaves, ∀ u ∈ [s], u.atom ≠ name := by decide
  have hgrow := ((batches_grow_and_compose .difference [s] clashing).2.1 hatoms s hs hmem).2
  have hjoin := (batches_grow_and_compose .difference [s] apart).2.2 hfront hback
  refine ⟨⟨hatoms, hs, hmem, by decide, hgrow.resolve_left hchanged⟩, hfront, hback, ?_⟩
  exact congrArg Encoding.assertions hjoin

/-! ### Batches in another order -/

section

variable {statements others : List Statement}

theorem Statement.atoms_congr
    (h : ∀ name, (∃ t ∈ others, t.atom = name) ↔ ∃ s ∈ statements, s.atom = name) :
    Statement.atoms others = Statement.atoms statements := by
  refine Names.sorted_congr fun name => ?_
  rw [List.mem_map, List.mem_map]
  exact h name

/-- A header is determined by the names of atoms and the names of variables. -/
theorem Preamble.ofStatements_congr (f : Fragment)
    (hatoms : ∀ name, (∃ t ∈ others, t.atom = name) ↔ ∃ s ∈ statements, s.atom = name)
    (hleaves : ∀ name, (∃ t ∈ others, name ∈ t.leaves) ↔ ∃ s ∈ statements, name ∈ s.leaves) :
    Preamble.ofStatements f others = Preamble.ofStatements f statements := by
  have hnames : Names.sorted (others.flatMap Statement.vars)
      = Names.sorted (statements.flatMap Statement.vars) := by
    refine Names.sorted_congr fun name => ?_
    simp only [List.mem_flatMap, Statement.mem_vars]
    exact hleaves name
  rw [ofStatements, ofStatements, Statement.atoms_congr hatoms, hnames]

end

/--
**The order of a batch is the order of its results and nothing else.**  A reordered batch has
the same header and the same verdict on every statement, so its lines, its diagnostics and its
records are those of the batch, reordered like the statements.  A header depends on nothing
but the sets of names: two batches with the same atoms and the same variables have the same
one.
-/
theorem reordering_reorders_the_results (f : Fragment) (statements others : List Statement) :
    let verdict := f.verdict (Statement.atoms statements)
    let header := (Preamble.ofStatements f statements).render
    (others.Perm statements →
      (Preamble.ofStatements f others).render = header ∧
      (∀ s ∈ others, f.verdict (Statement.atoms others) s = verdict s) ∧
      f.encodeAll statements = f.collect statements verdict ∧
      f.encodeAll others = f.collect others verdict) ∧
    ((∀ name, (∃ t ∈ others, t.atom = name) ↔ ∃ s ∈ statements, s.atom = name) →
      (∀ name, (∃ t ∈ others, name ∈ t.leaves) ↔ ∃ s ∈ statements, name ∈ s.leaves) →
      (Preamble.ofStatements f others).render = header) := by
  intro verdict header
  refine ⟨fun hperm => ?_, fun hatoms hleaves => ?_⟩
  · have hsame : ∀ P : Statement → Prop, (∃ t ∈ others, P t) ↔ ∃ s ∈ statements, P s := by
      intro P
      simp only [hperm.mem_iff]
    have hatoms : Statement.atoms others = Statement.atoms statements :=
      Statement.atoms_congr fun _ => hsame _
    have hheader : Preamble.ofStatements f others = Preamble.ofStatements f statements :=
      Preamble.ofStatements_congr f (fun _ => hsame _) fun _ => hsame _
    refine ⟨congrArg Preamble.render hheader, fun s _ => ?_, f.encodeAll_eq_collect _, ?_⟩
    · rw [hatoms]
    · rw [f.encodeAll_eq_collect, hatoms]
  · exact congrArg Preamble.render (Preamble.ofStatements_congr f hatoms hleaves)

theorem reversed_and_repeated_batches_keep_their_header :
    let difference (atom left right : String) : Statement :=
      ⟨atom, "diff", [⟨[.app "-" [.var left, .var right]]⟩], "<=", .const (.int 0)⟩
    let batch := [difference "a" "x" "y", difference "b" "a" "z", difference "c" "y" "x"]
    let repeated := [difference "c" "z" "z", difference "b" "y" "x", difference "c" "x" "a",
      difference "a" "y" "y"]
    let header := "(set-logic QF_IDL)\n(declare-fun a () Bool)\n(declare-fun b () Bool)\n" ++
      "(declare-fun c () Bool)\n(declare-fun x () Int)\n(declare-fun y () Int)\n" ++
      "(declare-fun z () Int)\n"
    (batch.reverse.Perm batch ∧
      (Preamble.ofStatements .difference batch.reverse).render = header ∧
      (Fragment.difference.encodeAll batch.reverse).assertions
        = "(assert (= c (<= (- y x) 0)))\n(assert (= a (<= (- x y) 0)))\n") ∧
    (∀ name, (∃ t ∈ repeated, t.atom = name) ↔ ∃ s ∈ batch, s.atom = name) ∧
      (∀ name, (∃ t ∈ repeated, name ∈ t.leaves) ↔ ∃ s ∈ batch, name ∈ s.leaves) ∧
      (Preamble.ofStatements .difference repeated).render = header := by
  intro difference batch repeated header
  have hperm : batch.reverse.Perm batch := List.reverse_perm batch
  have hheader : (Preamble.ofStatements .difference batch).render = header := by decide +kernel
  have hatoms : ∀ name, (∃ t ∈ repeated, t.atom = name) ↔ ∃ s ∈ batch, s.atom = name := by
    intro name
    rw [← List.mem_map, ← List.mem_map]
    show name ∈ ["c", "b", "c", "a"] ↔ name ∈ ["a", "b", "c"]
    grind
  have hleaves : ∀ name, (∃ t ∈ repeated, name ∈ t.leaves) ↔ ∃ s ∈ batch, name ∈ s.leaves := by
    intro name
    rw [← List.mem_flatMap, ← List.mem_flatMap]
    show name ∈ ["z", "z", "y", "x", "x", "a", "y", "y"] ↔ name ∈ ["x", "y", "a", "z", "y", "x"]
    grind
  obtain ⟨hreversed, -, -, hresults⟩ :=
    (reordering_reorders_the_results .difference batch batch.reverse).1 hperm
  refine ⟨⟨hperm, hreversed.trans hheader, ?_⟩, hatoms, hleaves, ?_⟩
  · rw [hresults]
    decide +kernel
  · exact ((reordering_reorders_the_results .difference batch repeated).2 hatoms hleaves).trans
      hheader

end TheoryScript
