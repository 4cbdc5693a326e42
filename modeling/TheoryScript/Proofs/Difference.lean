/-
The fragment of difference constraints.

A statement is in the fragment when it bounds one integer term, which is a variable, a
number or a difference with at most two variables, by a number or a variable.  That is said
here of the statement itself (`Statement.IsDifference`), without the order in which the
rules are tried, and it is what the rules demand together (`lower_iff_isDifference`).

The rules about the head look at its top and at its leaves.  What stands between them may
have any name, and the bound is not counted, so a bound that is a variable can be the third.
-/
import TheoryScript.Proofs.Formula

namespace TheoryScript

open Smt

/-! ### Integer terms -/

/-- Every constant is a number, and every operation has operands. -/
inductive Term.Integral : Term → Prop
  | var (name : String) : Integral (.var name)
  | int (value : Int64) : Integral (.const (.int value))
  | app (operation : String) {operands : List Term} (hne : operands ≠ [])
      (hoperands : ∀ t ∈ operands, Integral t) : Integral (.app operation operands)

theorem Difference.operandFault?_eq_none_iff {t : Term} : operandFault? t = none ↔ t.Integral := by
  induction t using Term.induct with
  | hvar name => exact ⟨fun _ => .var name, fun _ => rfl⟩
  | hconst value =>
      cases value with
      | int v => exact ⟨fun _ => .int v, fun _ => rfl⟩
      | name text =>
          refine ⟨fun h => by simp [operandFault?] at h, fun h => ?_⟩
          cases h
  | happ operation operands ih =>
      rw [operandFault?_app]
      constructor
      · rintro ⟨hne, hoperands⟩
        exact .app operation hne fun t ht => (ih t ht).mp (hoperands t ht)
      · intro h
        cases h with
        | app _ hne hoperands => exact ⟨hne, fun t ht => (ih t ht).mpr (hoperands t ht)⟩

/-- An integer term has a text, whatever its variables are called. -/
theorem Term.Integral.render_ne_empty {t : Term} (h : t.Integral) : t.render ≠ "" := by
  induction h with
  | var name => exact symbol_ne_empty name
  | int value => exact (proper_ofInt value.toInt).render_ne_empty
  | @app operation operands hne hoperands ih =>
      obtain ⟨t, rest, rfl⟩ := List.exists_cons_of_ne_nil hne
      have ht : t.toSExpr.render ≠ "" := ih t (by simp)
      rw [Term.render, Term.toSExpr, Term.toSExprs, SExpr.render, SExpr.renderAll]
      exact application_ne_empty ht _

/-! ### Statements in the fragment -/

/-- A statement is a difference constraint on its head. -/
structure Statement.IsDifference (s : Statement) (head : Term) : Prop where
  /-- There is one element, and the head is its one term. -/
  elements : s.elements = [⟨[head]⟩]
  /-- The head is an integer term. -/
  integral : head.Integral
  /-- If the head is an operation, it is the difference. -/
  top : ∀ operation operands, head = .app operation operands → operation = "-"
  /-- At most two variables occur in the head. -/
  occurrences : head.leaves.length ≤ 2
  /-- The bound is a number or a variable. -/
  bound : (∃ value, s.right = .const (.int value)) ∨ ∃ name, s.right = .var name
  /-- The head is at most the bound. -/
  relation : s.relation = "<="

namespace Difference

/-- The rules about the top of a head; one that is no operation has too few leaves to break them. -/
theorem headError?_eq_none_iff {s : Statement} {head : Term} :
    headError? s head = none ↔
      (∀ operation operands, head = .app operation operands → operation = "-") ∧
        head.leaves.length ≤ 2 := by
  rw [← Term.variableCount_eq_length_leaves]
  cases head with
  | var name => simp [headError?, Term.variableCount]
  | const value => simp [headError?, Term.variableCount]
  | app op operands =>
      have htop : (∀ operation children, Term.app op operands = .app operation children →
          operation = "-") ↔ op = operation := by
        constructor
        · intro h
          exact h op operands rfl
        · rintro h operation children heq
          rw [← (Term.app.inj heq).1]
          exact h
      have hfew : (Term.app op operands).variableCount ≤ 2 ↔
          ¬maxVariables < (Term.app op operands).variableCount := Nat.not_lt.symm
      rw [htop, hfew, headError?]
      by_cases hmany : maxVariables < (Term.app op operands).variableCount
      · rw [if_pos hmany]
        simp [hmany]
      · rw [if_neg hmany]
        by_cases hop : op = operation
        · rw [if_pos hop]
          exact ⟨fun _ => ⟨hop, hmany⟩, fun _ => rfl⟩
        · rw [if_neg hop]
          simp [hop]

/-- **A statement is lowered exactly when it is a difference constraint on some head.** -/
theorem lower_iff_isDifference {s : Statement} {c : SExpr} :
    lower s = .ok c ↔ ∃ head, s.IsDifference head ∧ c = constraint head s.right := by
  rw [lower_eq_ok_iff]
  constructor
  · rintro ⟨head, helements, hoperands, hbound, htop, hrelation, rfl⟩
    obtain ⟨htop, hleaves⟩ := headError?_eq_none_iff.mp htop
    exact ⟨head, ⟨helements, operandFault?_eq_none_iff.mp hoperands, htop, hleaves,
      boundFault?_eq_none_iff.mp hbound, hrelation⟩, rfl⟩
  · rintro ⟨head, h, rfl⟩
    exact ⟨head, h.elements, operandFault?_eq_none_iff.mpr h.integral,
      boundFault?_eq_none_iff.mpr h.bound, headError?_eq_none_iff.mpr ⟨h.top, h.occurrences⟩,
      h.relation, rfl⟩

/-- The text of a constraint: the head is written, so the relation has arguments. -/
theorem render_constraint {head : Term} (h : head.Integral) (bound : Term) :
    (constraint head bound).render = "(<= " ++ head.render ++ " " ++ bound.render ++ ")" := by
  have hhead : head.toSExpr.render ≠ "" := h.render_ne_empty
  rw [constraint, SExpr.render, SExpr.renderAll, SExpr.renderAll, SExpr.renderAll,
    application_eq hhead, String.intercalate_cons_cons, String.intercalate_singleton]
  simp [Term.render, relation, ← String.toList_inj]

/-- What is encoded as a difference, and how it is written. -/
theorem encode_eq_ok_iff {s : Statement} (hcat : s.category = "diff") {text : String} :
    Fragment.difference.encode s = .ok text ↔
      ∃ head, s.IsDifference head ∧
        text = "(<= " ++ head.render ++ " " ++ s.right.render ++ ")" := by
  have hlower : Fragment.difference.lower s = lower s := if_pos hcat
  rw [Fragment.encode, hlower]
  constructor
  · intro h
    cases hc : lower s with
    | error error => simp [hc, Except.map] at h
    | ok c =>
        obtain ⟨head, hhead, rfl⟩ := lower_iff_isDifference.mp hc
        refine ⟨head, hhead, ?_⟩
        rw [hc] at h
        rw [← render_constraint hhead.integral]
        exact (Except.ok.inj h).symm
  · rintro ⟨head, hhead, rfl⟩
    rw [lower_iff_isDifference.mpr ⟨head, hhead, rfl⟩, ← render_constraint hhead.integral]
    rfl

end Difference

namespace Statement.IsDifference

variable {s : Statement} {head : Term}

theorem leaves_eq (h : s.IsDifference head) : s.leaves = head.leaves ++ s.right.leaves := by
  simp [leaves, terms, h.elements]

theorem leaves_of_number (h : s.IsDifference head) {value : Int64}
    (hright : s.right = .const (.int value)) : s.leaves.length ≤ 2 := by
  have := h.occurrences
  rw [h.leaves_eq, hright, List.length_append]
  exact this

theorem length_leaves_le (h : s.IsDifference head) : s.leaves.length ≤ 3 := by
  have hhead := h.occurrences
  rcases h.bound with ⟨value, hright⟩ | ⟨name, hright⟩
  · have := h.leaves_of_number hright
    omega
  · have hbound : s.right.leaves.length = 1 := by rw [hright]; rfl
    rw [h.leaves_eq, List.length_append]
    omega

end Statement.IsDifference

/--
**A difference that is encoded is in the fragment, and a statement outside it is refused.**
The text is the one head under `<=` with its bound, and the operation at the top of the
head, if there is one, is `-`.  At most two variables occur in a statement whose bound is a
number, and at most three in one whose bound is a variable.  No statement of the fragment
that is written with minus alone is refused.
-/
theorem encoded_difference_is_in_fragment {s : Statement} (hcat : s.category = "diff") :
    (∀ text, Fragment.difference.encode s = .ok text →
      ∃ head, s.IsDifference head ∧
        text = "(<= " ++ head.render ++ " " ++ s.right.render ++ ")" ∧
        (∀ value, s.right = .const (.int value) → s.leaves.length ≤ 2) ∧
        s.leaves.length ≤ 3) ∧
    ((¬∃ head, s.IsDifference head) → ∃ error, Fragment.difference.encode s = .error error) ∧
    ∀ head, s.IsDifference head → (∀ op ∈ head.operations, op = "-") →
      Fragment.difference.encode s
        = .ok ("(<= " ++ head.render ++ " " ++ s.right.render ++ ")") := by
  refine ⟨?_, ?_, fun head hhead _ => (Difference.encode_eq_ok_iff hcat).mpr ⟨head, hhead, rfl⟩⟩
  · intro text htext
    obtain ⟨head, hhead, rfl⟩ := (Difference.encode_eq_ok_iff hcat).mp htext
    exact ⟨head, hhead, rfl, fun value hright => hhead.leaves_of_number hright,
      hhead.length_leaves_le⟩
  · intro houtside
    cases hencode : Fragment.difference.encode s with
    | error error => exact ⟨error, rfl⟩
    | ok text =>
        obtain ⟨head, hhead, -⟩ := (Difference.encode_eq_ok_iff hcat).mp hencode
        exact absurd ⟨head, hhead⟩ houtside

theorem nested_difference_is_in_fragment :
    let head : Term := .app "-" [.app "-" [.var "x", .const (.int 1)], .var "y"]
    let s : Statement := ⟨"a", "diff", [⟨[head]⟩], "<=", .const (.int 0)⟩
    let t : Statement := { s with elements := [⟨[.app "+" [.var "x", .var "y"]]⟩] }
    (s.category = "diff" ∧ s.IsDifference head ∧ (∀ op ∈ head.operations, op = "-") ∧
      Fragment.difference.encode s = .ok "(<= (- (- x 1) y) 0)" ∧ s.leaves.length ≤ 2) ∧
    t.category = "diff" ∧ (¬∃ head, t.IsDifference head) ∧
      ∃ error, Fragment.difference.encode t = .error error := by
  intro head s t
  have hcat : s.category = "diff" := rfl
  have hmember : s.IsDifference head :=
    { elements := rfl
      integral := Difference.operandFault?_eq_none_iff.mp (by decide)
      top := fun operation operands h => (Term.app.inj h).1.symm
      occurrences := by decide
      bound := Or.inl ⟨0, rfl⟩
      relation := rfl }
  have hminus : ∀ op ∈ head.operations, op = "-" := by decide
  have hencode : Fragment.difference.encode s = .ok "(<= (- (- x 1) y) 0)" :=
    (encoded_difference_is_in_fragment hcat).2.2 head hmember hminus
  have houtside : ¬∃ head, t.IsDifference head := by
    rintro ⟨head, h⟩
    have hhead : head = .app "+" [.var "x", .var "y"] := by simpa [t] using h.elements.symm
    exact absurd (h.top _ _ hhead) (by decide)
  obtain ⟨-, -, -, hleaves, -⟩ := (encoded_difference_is_in_fragment hcat).1 _ hencode
  have hcat' : t.category = "diff" := rfl
  have hrefused := (encoded_difference_is_in_fragment hcat').2.1 houtside
  exact ⟨⟨hcat, hmember, hminus, hencode, hleaves 0 rfl⟩, hcat', houtside, hrefused⟩

/-- An operation below the top is not compared with minus, and a bound is not counted. -/
theorem sum_below_top_and_third_variable_are_encoded :
    let sum : Term := .app "+" [.var "y", .const (.int 1)]
    let s : Statement := ⟨"a", "diff", [⟨[.app "-" [.var "x", sum]]⟩], "<=", .const (.int 0)⟩
    let t : Statement := ⟨"a", "diff", [⟨[.app "-" [.var "x", .var "y"]]⟩], "<=", .var "z"⟩
    (Fragment.difference.encode s = .ok "(<= (- x (+ y 1)) 0)" ∧ "+" ∈ s.operations) ∧
      Fragment.difference.encode t = .ok "(<= (- x y) z)" ∧ t.leaves.length = 3 := by
  decide +kernel

end TheoryScript
