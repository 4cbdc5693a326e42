/-
What an accepted statement looks like.

A statement is asserted when its names pass the check of the batch and its category lowers
it.  Each test is inverted here once, as an equivalence with everything the test demands,
so nothing later looks into a test again.

The name check runs over the distinct variables of a statement.  That it is the same as
asking every occurrence is `nameError?_eq_none_iff`.
-/
import Mathlib.Data.List.Forall2
import TheoryScript.Batch

namespace TheoryScript

/-! ### Results under a function -/

section

variable {ε α β : Type} {result : Except ε α} {f : α → β}

theorem exceptMap_eq_ok_iff {b : β} : result.map f = .ok b ↔ ∃ a, result = .ok a ∧ b = f a := by
  cases result with
  | error error => simp [Except.map]
  | ok a => simp [Except.map, eq_comm]

theorem exceptMap_eq_error_iff {error : ε} : result.map f = .error error ↔ result = .error error := by
  cases result with
  | error found => simp [Except.map]
  | ok a => simp [Except.map]

end

/-! ### Names -/

theorem Term.mem_vars {name : String} {t : Term} : name ∈ t.vars ↔ name ∈ t.leaves :=
  List.mem_eraseDups

theorem Statement.mem_vars {name : String} {s : Statement} : name ∈ s.vars ↔ name ∈ s.leaves := by
  rw [Statement.vars, Statement.leaves, List.mem_eraseDups, List.mem_flatMap, List.mem_flatMap]
  constructor
  · rintro ⟨t, ht, hname⟩
    exact ⟨t, ht, Term.mem_vars.mp hname⟩
  · rintro ⟨t, ht, hname⟩
    exact ⟨t, ht, Term.mem_vars.mpr hname⟩

/-- A name without fault is not empty, can stand between bars and is new to the theory. -/
theorem Smt.symbolFault?_eq_none_iff {name : String} :
    symbolFault? name = none ↔
      name ≠ "" ∧ isQuotable name = true ∧ name ∉ theorySymbols := by
  unfold symbolFault?
  by_cases hempty : name.isEmpty = true
  · simp [String.isEmpty_iff.mp hempty]
  have hne : name ≠ "" := fun h => hempty (String.isEmpty_iff.mpr h)
  by_cases hquotable : isQuotable name = true
  · by_cases htheory : name ∈ theorySymbols
    · simp [hempty, hquotable, htheory]
    · simp [hempty, hquotable, htheory, hne]
  · simp [hempty, hquotable]

theorem variableFault?_eq_none_iff {atoms : List String} {name : String} :
    variableFault? atoms name = none ↔ Smt.symbolFault? name = none ∧ name ∉ atoms := by
  unfold variableFault?
  cases Smt.symbolFault? name with
  | some fault => simp
  | none =>
      by_cases hmem : name ∈ atoms
      · simp [hmem]
      · simp [hmem]

theorem variableError?_eq_none_iff {atoms : List String} {name : String} :
    variableError? atoms name = none ↔ Smt.symbolFault? name = none ∧ name ∉ atoms := by
  rw [variableError?, Option.map_eq_none_iff, variableFault?_eq_none_iff]

/-- **The name check passes exactly when it passes at every occurrence of a name.** -/
theorem Statement.nameError?_eq_none_iff {s : Statement} {atoms : List String} :
    s.nameError? atoms = none ↔
      Smt.symbolFault? s.atom = none ∧
        ∀ name ∈ s.leaves, Smt.symbolFault? name = none ∧ name ∉ atoms := by
  have hvars : s.vars.findSome? (variableError? atoms) = none ↔
      ∀ name ∈ s.leaves, Smt.symbolFault? name = none ∧ name ∉ atoms := by
    simp only [List.findSome?_eq_none_iff, Statement.mem_vars, variableError?_eq_none_iff]
  unfold Statement.nameError? TheoryScript.nameError?
  cases hatom : Smt.symbolFault? s.atom with
  | some fault => simp
  | none => simpa using hvars

/-! ### Shapes -/

theorem Element.soleTerm_eq_ok_iff {e : Element} {t : Term} :
    e.soleTerm = .ok t ↔ e.terms = [t] := by
  unfold Element.soleTerm
  cases e.terms with
  | nil => simp
  | cons u rest =>
      cases rest with
      | nil => simp
      | cons v rest => simp

theorem Statement.relationError?_eq_none_iff {s : Statement} {allowed : String} :
    s.relationError? allowed = none ↔ s.relation = allowed := by
  unfold Statement.relationError?
  split
  · rename_i h
    simp [h]
  · rename_i h
    simp [h]

namespace Difference

theorem soleHead_eq_ok_iff {s : Statement} {head : Term} :
    soleHead s = .ok head ↔ s.elements = [⟨[head]⟩] := by
  unfold soleHead
  cases s.elements with
  | nil => simp
  | cons e rest =>
      cases rest with
      | cons f rest => simp
      | nil =>
          simp only [Element.soleTerm_eq_ok_iff, List.cons.injEq, and_true]
          constructor
          · intro h
            rw [← h]
          · rintro rfl
            rfl

theorem error?_eq_none_iff {s : Statement} {head : Term} :
    error? s head = none ↔
      operandFault? head = none ∧ boundFault? s.right = none ∧ headError? s head = none ∧
        s.relation = relation := by
  simp only [error?, Option.or_eq_none_iff, Option.map_eq_none_iff,
    Statement.relationError?_eq_none_iff]

/-- What the rules of a difference demand, all at once. -/
theorem lower_eq_ok_iff {s : Statement} {c : Smt.SExpr} :
    lower s = .ok c ↔
      ∃ head, s.elements = [⟨[head]⟩] ∧ operandFault? head = none ∧
        boundFault? s.right = none ∧ headError? s head = none ∧ s.relation = relation ∧
        c = constraint head s.right := by
  unfold lower
  constructor
  · intro h
    cases hhead : soleHead s with
    | error fault => simp [hhead] at h
    | ok head =>
        cases herror : error? s head with
        | some error => simp [hhead, herror] at h
        | none =>
            obtain ⟨hoperands, hbound, htop, hrelation⟩ := error?_eq_none_iff.mp herror
            simp only [hhead, herror, Except.ok.injEq] at h
            exact ⟨head, soleHead_eq_ok_iff.mp hhead, hoperands, hbound, htop, hrelation, h.symm⟩
  · rintro ⟨head, helements, hoperands, hbound, htop, hrelation, rfl⟩
    have hhead : soleHead s = .ok head := soleHead_eq_ok_iff.mpr helements
    have herror : error? s head = none :=
      error?_eq_none_iff.mpr ⟨hoperands, hbound, htop, hrelation⟩
    simp [hhead, herror]

theorem boundFault?_eq_none_iff {t : Term} :
    boundFault? t = none ↔ (∃ v, t = .const (.int v)) ∨ ∃ name, t = .var name := by
  cases t with
  | var name => simp [boundFault?]
  | app operation children => simp [boundFault?]
  | const value =>
      cases value with
      | int v => simp [boundFault?]
      | name text => simp [boundFault?]

theorem operandsFault?_eq_none_iff {ts : List Term} :
    operandsFault? ts = none ↔ ∀ t ∈ ts, operandFault? t = none := by
  induction ts with
  | nil => simp [operandsFault?]
  | cons t rest ih =>
      rw [operandsFault?]
      cases h : operandFault? t with
      | some fault => simp [h]
      | none => simp [h, ih]

theorem operandFault?_app {operation : String} {children : List Term} :
    operandFault? (.app operation children) = none ↔
      children ≠ [] ∧ ∀ c ∈ children, operandFault? c = none := by
  cases children with
  | nil => simp [operandFault?]
  | cons t rest => rw [operandFault?, operandsFault?_eq_none_iff]; simp

end Difference

namespace Domain

theorem Item.ofElement_eq_ok_iff {e : Element} {item : Item} :
    Item.ofElement e = .ok item ↔ ∃ t, e.terms = [t] ∧ Item.ofTerm t = .ok item := by
  unfold Item.ofElement
  cases h : e.soleTerm with
  | error fault =>
      simp only [reduceCtorEq, false_iff, not_exists, not_and]
      intro t ht
      rw [Element.soleTerm_eq_ok_iff.mpr ht] at h
      simp at h
  | ok t => simp [Element.soleTerm_eq_ok_iff.mp h]

/-- The terms that are items: a number, or a range between two numbers in order. -/
theorem Item.ofTerm_eq_ok_iff {t : Term} {item : Item} :
    Item.ofTerm t = .ok item ↔
      (∃ v, t = .const (.int v) ∧ item = .value v) ∨
      ∃ lower upper, t = .app rangeOperation [.const (.int lower), .const (.int upper)] ∧
        ¬upper < lower ∧ item = .range lower upper := by
  constructor
  · intro h
    unfold Item.ofTerm at h
    split at h
    · rename_i v
      exact Or.inl ⟨v, rfl, (Except.ok.inj h).symm⟩
    · rename_i operation children
      split at h
      · rename_i hop
        split at h
        · rename_i lower upper
          split at h
          · simp at h
          · rename_i hle
            exact Or.inr ⟨lower, upper, by rw [hop], hle, (Except.ok.inj h).symm⟩
        · simp at h
      · simp at h
    · simp at h
    · simp at h
  · rintro (⟨v, rfl, rfl⟩ | ⟨lower, upper, rfl, hle, rfl⟩)
    · rfl
    · simp [Item.ofTerm, hle]

theorem items_eq_ok_iff {es : List Element} {found : List Item} :
    items es = .ok found ↔ List.Forall₂ (fun e item => Item.ofElement e = .ok item) es found := by
  induction es generalizing found with
  | nil =>
      simp only [items, Except.ok.injEq, List.forall₂_nil_left_iff]
      exact eq_comm
  | cons e rest ih =>
      rw [items]
      cases he : Item.ofElement e with
      | error fault => simp [List.forall₂_cons_left_iff, he]
      | ok item =>
          cases hrest : items rest with
          | error fault =>
              simp only [Except.map, reduceCtorEq, false_iff, List.forall₂_cons_left_iff,
                not_exists, not_and]
              intro item' more _ hmore
              rw [ih.mpr hmore] at hrest
              simp at hrest
          | ok more =>
              simp only [Except.map, Except.ok.injEq, List.forall₂_cons_left_iff, he]
              constructor
              · rintro rfl
                exact ⟨item, more, rfl, ih.mp hrest, rfl⟩
              · rintro ⟨item', more', rfl, hmore, rfl⟩
                rw [ih.mpr hmore, Except.ok.injEq] at hrest
                rw [hrest]

/-- What the rules of a domain demand, all at once. -/
theorem lower_eq_ok_iff {s : Statement} {c : Smt.SExpr} :
    lower s = .ok c ↔
      ∃ name found, s.elements ≠ [] ∧ s.right = .var name ∧
        List.Forall₂ (fun e item => Item.ofElement e = .ok item) s.elements found ∧
        s.relation = relation ∧ c = constraint name found := by
  unfold lower
  constructor
  · intro h
    split at h
    · simp at h
    · rename_i hempty
      split at h
      · rename_i name hright
        split at h
        · simp at h
        · rename_i found hfound
          split at h
          · simp at h
          · rename_i hrelation
            refine ⟨name, found, ?_, hright, items_eq_ok_iff.mp hfound,
              Statement.relationError?_eq_none_iff.mp hrelation, (Except.ok.inj h).symm⟩
            intro hnil
            exact hempty (by rw [hnil]; rfl)
      · simp at h
      · simp at h
  · rintro ⟨name, found, hne, hright, hfound, hrelation, rfl⟩
    have hempty : s.elements.isEmpty = false := by simpa using hne
    rw [if_neg (by simp [hempty]), hright, items_eq_ok_iff.mpr hfound,
      Statement.relationError?_eq_none_iff.mpr hrelation]

end Domain

/-! ### The two categories -/

namespace Fragment

theorem outcome_eq_ok_iff {f : Fragment} {atoms : List String} {s : Statement} {c : Smt.SExpr} :
    f.outcome atoms s = .ok c ↔ s.nameError? atoms = none ∧ f.lower s = .ok c := by
  unfold outcome
  cases s.nameError? atoms with
  | some error => simp
  | none => simp

theorem outcome_eq_error_iff {f : Fragment} {atoms : List String} {s : Statement}
    {error : EncodingError} :
    f.outcome atoms s = .error error ↔
      s.nameError? atoms = some error ∨ s.nameError? atoms = none ∧ f.lower s = .error error := by
  unfold outcome
  cases s.nameError? atoms with
  | some found => simp
  | none => simp

/-- The text of a statement is that of its constraint. -/
theorem encode_eq_ok_iff_lower {f : Fragment} {s : Statement} {text : String} :
    f.encode s = .ok text ↔ ∃ c, f.lower s = .ok c ∧ text = c.render :=
  exceptMap_eq_ok_iff

theorem encode_eq_error_iff_lower {f : Fragment} {s : Statement} {error : EncodingError} :
    f.encode s = .error error ↔ f.lower s = .error error :=
  exceptMap_eq_error_iff

theorem lower_difference_eq_ok_iff {s : Statement} {c : Smt.SExpr} :
    difference.lower s = .ok c ↔
      (s.category = Difference.category ∧ Difference.lower s = .ok c) ∨
        (s.category = Domain.category ∧ Domain.lower s = .ok c) := by
  have hne : Domain.category ≠ Difference.category := by decide
  unfold difference lowerDifference
  by_cases hdiff : s.category = Difference.category
  · simp [hdiff, Ne.symm hne]
  · by_cases hdom : s.category = Domain.category
    · simp [hdom, hne]
    · simp [hdiff, hdom]

end Fragment

end TheoryScript
