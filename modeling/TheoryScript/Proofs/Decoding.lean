/-
A line determines its statement.

Reading a line gives the tree of its assertion, and different trees have different forms, so
two accepted statements with one line have one atom and one constraint.  What is left is to
read a constraint as a statement.  A domain gives back its items, and from them its elements.
A difference gives back its two sides, with one exception: a negative number is written as
minus before a numeral, and so is the operation minus before that number.

`Term.Alike` is this exception, made a congruence.  Integer terms are alike exactly when they
have one tree (`toSExpr_eq_iff_alike`), so nothing but the exception is lost.
-/
import TheoryScript.Proofs.Difference
import TheoryScript.Proofs.Script

namespace TheoryScript

open Smt

/-! ### Trees and their forms -/

/-- Lists with the same images are related member by member, if members with one image are. -/
theorem forall₂_of_map_eq {α β : Type} {f : α → β} {R : α → α → Prop} {as bs : List α}
    (hR : ∀ a ∈ as, ∀ b ∈ bs, f a = f b → R a b) (h : as.map f = bs.map f) :
    List.Forall₂ R as bs := by
  induction as generalizing bs with
  | nil =>
      rw [List.map_nil, eq_comm, List.map_eq_nil_iff] at h
      rw [h]
      exact .nil
  | cons a as ih =>
      cases bs with
      | nil => cases h
      | cons b bs =>
          rw [List.map_cons, List.map_cons, List.cons.injEq] at h
          have hfirst : R a b := hR a (by simp) b (by simp) h.1
          refine .cons hfirst (ih (fun x hx y hy => ?_) h.2)
          exact hR x (List.mem_cons_of_mem _ hx) y (List.mem_cons_of_mem _ hy)

/-- The operator of a form is its first symbol, so no two trees have one form. -/
theorem Smt.SExpr.toForm_injective {a b : SExpr} (h : a.toForm = b.toForm) : a = b := by
  induction a using SExpr.induct generalizing b with
  | hsymbol name =>
      cases b with
      | symbol other => rw [Form.symbol.inj h]
      | numeral value => cases h
      | app operator arguments => cases h
  | hnumeral value =>
      cases b with
      | symbol name => cases h
      | numeral other => rw [Form.numeral.inj h]
      | app operator arguments => cases h
  | happ operator arguments ih =>
      cases b with
      | symbol name => cases h
      | numeral value => cases h
      | app other arguments' =>
          rw [toForm, toForm, Form.list.injEq, List.cons.injEq, toForms_eq_map,
            toForms_eq_map] at h
          have harguments := forall₂_of_map_eq (fun x hx y _ => ih x hx) h.2
          rw [List.forall₂_eq_eq_eq] at harguments
          rw [Form.symbol.inj h.1, harguments]

theorem ofInt_injective {m n : Int} (h : SExpr.ofInt m = SExpr.ofInt n) : m = n := by
  unfold SExpr.ofInt at h
  by_cases hm : m < 0
  · by_cases hn : n < 0
    · rw [if_pos hm, if_pos hn] at h
      have hmagnitude : m.natAbs = n.natAbs := by simpa using h
      omega
    · rw [if_pos hm, if_neg hn] at h
      cases h
  · by_cases hn : n < 0
    · rw [if_neg hm, if_pos hn] at h
      cases h
    · rw [if_neg hm, if_neg hn] at h
      have hmagnitude : m.natAbs = n.natAbs := by simpa using h
      omega

/-! ### Terms that are alike -/

namespace Term

/--
Terms that differ at most in how negative numbers are written: the least congruence in which
a negative number is the operation minus on its magnitude.  The least number of 64 bits has no
magnitude among them and is only itself.
-/
inductive Alike : Term → Term → Prop
  | negative {n : Int64} (hlow : Int64.minValue < n) (hneg : n < 0) :
      Alike (.const (.int n)) (.app "-" [.const (.int (-n))])
  | operand (operation : String) (before after : List Term) {a b : Term} (h : Alike a b) :
      Alike (.app operation (before ++ a :: after)) (.app operation (before ++ b :: after))
  | refl (t : Term) : Alike t t
  | symm {a b : Term} (h : Alike a b) : Alike b a
  | trans {a b c : Term} (hab : Alike a b) (hbc : Alike b c) : Alike a c

theorem Alike.app (operation : String) {as bs : List Term} (h : List.Forall₂ Alike as bs) :
    (Term.app operation as).Alike (.app operation bs) := by
  -- operands are replaced from the left, behind those that were replaced before
  have hbehind : ∀ before,
      (Term.app operation (before ++ as)).Alike (.app operation (before ++ bs)) := by
    induction h with
    | nil => exact fun before => .refl _
    | @cons a b as bs hab _ ih =>
        intro before
        have hrest := ih (before ++ [b])
        rw [List.append_assoc, List.append_assoc, List.singleton_append] at hrest
        exact (Alike.operand operation before as hab).trans hrest
  exact hbehind []

theorem toInt_neg_of_minValue_lt {n : Int64} (hlow : Int64.minValue < n) :
    (-n).toInt = -n.toInt := by
  have hmin : -2 ^ 63 < n.toInt := by
    rw [Int64.lt_iff_toInt_lt, Int64.toInt_minValue] at hlow
    exact hlow
  have hmax := n.toInt_lt
  rw [Int64.toInt_neg]
  exact Int.bmod_eq_of_le (by omega) (by omega)

theorem Alike.toSExpr_eq {a b : Term} (h : a.Alike b) : a.toSExpr = b.toSExpr := by
  induction h with
  | @negative n hlow hneg =>
      rw [Int64.lt_iff_toInt_lt, Int64.toInt_zero] at hneg
      have hpos : ¬-n.toInt < 0 := by omega
      simp only [toSExpr, toSExprs, Constant.toSExpr, toInt_neg_of_minValue_lt hlow, SExpr.ofInt,
        if_pos hneg, if_neg hpos, Int.natAbs_neg]
  | operand operation before after _ ih => simp only [toSExpr, toSExprs_eq_map, List.map_append,
      List.map_cons, ih]
  | refl t => rfl
  | symm _ ih => exact ih.symm
  | trans _ _ ihab ihbc => exact ihab.trans ihbc

/-- An operation that is written like a number is minus on the magnitude of that number. -/
theorem negative_of_ofInt_eq {n : Int64} {operation : String} {operands : List Term}
    (hoperands : ∀ t ∈ operands, t.Integral)
    (h : SExpr.ofInt n.toInt = (Term.app operation operands).toSExpr) :
    Int64.minValue < n ∧ n < 0 ∧ operation = "-" ∧ operands = [.const (.int (-n))] := by
  rw [toSExpr, toSExprs_eq_map] at h
  unfold SExpr.ofInt at h
  by_cases hneg : n.toInt < 0
  · rw [if_pos hneg, SExpr.app.injEq, eq_comm, eq_comm (b := operands.map toSExpr),
      List.map_eq_singleton_iff] at h
    obtain ⟨hoperation, t, rfl, ht⟩ := h
    cases hoperands t (by simp) with
    | var name => cases ht
    | app operation hne hoperands => cases ht
    | int m =>
        have hm : m.toInt = -n.toInt := by
          refine ofInt_injective (ht.trans ?_)
          rw [SExpr.ofInt, if_neg (by omega), Int.natAbs_neg]
        have hlow : Int64.minValue < n := by
          have := m.toInt_lt
          rw [Int64.lt_iff_toInt_lt, Int64.toInt_minValue]
          omega
        have hmagnitude : m = -n := by
          rw [← Int64.toInt_inj, hm, toInt_neg_of_minValue_lt hlow]
        refine ⟨hlow, ?_, hoperation, by rw [hmagnitude]⟩
        rw [Int64.lt_iff_toInt_lt]
        exact hneg
  · rw [if_neg hneg] at h
    cases h

/-- Only a variable is written like a variable. -/
theorem eq_var_of_toSExpr_eq {name : String} {t : Term} (ht : t.Integral)
    (h : t.toSExpr = (var name).toSExpr) : t = var name := by
  cases ht with
  | var other => rw [SExpr.symbol.inj h]
  | int n =>
      change SExpr.ofInt n.toInt = .symbol name at h
      unfold SExpr.ofInt at h
      split at h
      · cases h
      · cases h
  | app operation hne hoperands => cases h

/-- Only a number and, if it is negative, minus on its magnitude are written like the number. -/
theorem int_of_toSExpr_eq {n : Int64} {t : Term} (ht : t.Integral)
    (h : t.toSExpr = (const (.int n)).toSExpr) :
    t = .const (.int n) ∨
      Int64.minValue < n ∧ n < 0 ∧ t = .app "-" [.const (.int (-n))] := by
  cases ht with
  | var name => exact Or.inl (eq_var_of_toSExpr_eq (.int n) h.symm).symm
  | int m => exact Or.inl (by rw [Int64.toInt_inj.mp (ofInt_injective h)])
  | app operation hne hoperands =>
      obtain ⟨hlow, hneg, rfl, rfl⟩ := negative_of_ofInt_eq hoperands h.symm
      exact Or.inr ⟨hlow, hneg, rfl⟩

/-- **Integer terms are alike exactly when they are written as one tree.** -/
theorem toSExpr_eq_iff_alike {a b : Term} (ha : a.Integral) (hb : b.Integral) :
    a.toSExpr = b.toSExpr ↔ a.Alike b := by
  refine ⟨fun h => ?_, Alike.toSExpr_eq⟩
  induction ha generalizing b with
  | var name =>
      rw [eq_var_of_toSExpr_eq hb h.symm]
      exact .refl _
  | int n =>
      rcases int_of_toSExpr_eq hb h.symm with rfl | ⟨hlow, hneg, rfl⟩
      · exact .refl _
      · exact .negative hlow hneg
  | @app operation operands hne hoperands ih =>
      have ha : (Term.app operation operands).Integral := .app operation hne hoperands
      cases hb with
      | var name => exact (eq_var_of_toSExpr_eq ha h) ▸ .refl _
      | int n =>
          rcases int_of_toSExpr_eq ha h with hsame | ⟨hlow, hneg, hsame⟩
          · cases hsame
          · rw [hsame]
            exact (Alike.negative hlow hneg).symm
      | @app other operands' hne' hoperands' =>
          rw [toSExpr, toSExpr, SExpr.app.injEq, toSExprs_eq_map, toSExprs_eq_map] at h
          rw [h.1]
          exact .app other (forall₂_of_map_eq (fun t ht u hu => ih t ht (hoperands' u hu)) h.2)

end Term

/-! ### Text of single terms -/

/-- A term with integer constants, names that can be declared and simple operations. -/
structure Term.Legible (t : Term) : Prop where
  /-- Every constant is a number, and every operation has operands. -/
  integral : t.Integral
  /-- Every variable can be declared. -/
  names : ∀ name ∈ t.leaves, symbolFault? name = none
  /-- Every operation is a simple symbol. -/
  operations : ∀ op ∈ t.operations, isSimple op = true

theorem Term.Legible.readAll_line {t : Term} (h : t.Legible) :
    Form.readAll (t.render ++ "\n") = some [t.toSExpr.toForm] := by
  have hproper : t.toSExpr.Proper :=
    proper_toSExpr (Difference.operandFault?_eq_none_iff.mpr h.integral) fun name hname =>
      (symbolFault?_eq_none_iff.mp (h.names name hname)).2.1
  refine hproper.readAll_line_iff.mpr fun op hop => ?_
  rcases operators_toSExpr.2 op hop with hop | rfl
  · exact h.operations op hop
  · decide

theorem Term.Legible.toSExpr_eq {a b : Term} (ha : a.Legible) (hb : b.Legible)
    (h : a.render = b.render) : a.toSExpr = b.toSExpr := by
  have hread := ha.readAll_line
  rw [h, hb.readAll_line, Option.some.injEq, List.cons.injEq] at hread
  exact (SExpr.toForm_injective hread.1).symm

/-! ### Constraints of domains -/

namespace Domain

/-- The element that lists an item. -/
def Item.toElement : Item → Element
  | value v => ⟨[.const (.int v)]⟩
  | range lower upper => ⟨[.app rangeOperation [.const (.int lower), .const (.int upper)]]⟩

theorem Item.eq_toElement {e : Element} {item : Item} (h : Item.ofElement e = .ok item) :
    e = item.toElement := by
  obtain ⟨t, hterms, ht⟩ := Item.ofElement_eq_ok_iff.mp h
  rcases Item.ofTerm_eq_ok_iff.mp ht with ⟨v, rfl, rfl⟩ | ⟨lower, upper, rfl, -, rfl⟩
  · exact congrArg Element.mk hterms
  · exact congrArg Element.mk hterms

theorem elements_eq_map {es : List Element} {found : List Item}
    (h : List.Forall₂ (fun e item => Item.ofElement e = .ok item) es found) :
    es = found.map Item.toElement := by
  induction h with
  | nil => rfl
  | cons hitem _ ih => rw [List.map_cons, Item.eq_toElement hitem, ih]

theorem Item.toSExpr_injective {x y : String} {item other : Item}
    (h : item.toSExpr x = other.toSExpr y) : x = y ∧ item = other := by
  cases item with
  | value v =>
      cases other with
      | value w =>
          simp only [Item.toSExpr, SExpr.app.injEq, List.cons.injEq, SExpr.symbol.injEq,
            true_and, and_true] at h
          rw [Int64.toInt_inj.mp (ofInt_injective h.2)]
          exact ⟨h.1, rfl⟩
      | range lower upper => simp [Item.toSExpr] at h
  | range lower upper =>
      cases other with
      | value w => simp [Item.toSExpr] at h
      | range lower' upper' =>
          simp only [Item.toSExpr, SExpr.app.injEq, List.cons.injEq, SExpr.symbol.injEq,
            true_and, and_true] at h
          obtain ⟨⟨hlower, hname⟩, -, hupper⟩ := h
          rw [Int64.toInt_inj.mp (ofInt_injective hlower),
            Int64.toInt_inj.mp (ofInt_injective hupper)]
          exact ⟨hname, rfl⟩

/-- The connective of several items is none that a single item is written with. -/
theorem Item.toSExpr_ne_or {x : String} (item : Item) (arguments : List SExpr) :
    item.toSExpr x ≠ .app "or" arguments := by
  cases item with
  | value v => simp [Item.toSExpr]
  | range lower upper => simp [Item.toSExpr]

/-- A constraint gives back the variable and the items of its domain. -/
theorem constraint_injective {x y : String} {found others : List Item} (hfound : found ≠ [])
    (hothers : others ≠ []) (h : constraint x found = constraint y others) :
    x = y ∧ found = others := by
  match found, others with
  | [item], [other] =>
      obtain ⟨hname, hitem⟩ := Item.toSExpr_injective h
      exact ⟨hname, by rw [hitem]⟩
  | [item], _ :: _ :: _ => exact absurd h (item.toSExpr_ne_or _)
  | _ :: _ :: _, [other] => exact absurd h.symm (other.toSExpr_ne_or _)
  | first :: second :: rest, first' :: second' :: rest' =>
      have hitems : (first :: second :: rest).map (Item.toSExpr x)
          = (first' :: second' :: rest').map (Item.toSExpr y) := (SExpr.app.inj h).2
      have hname : x = y := (Item.toSExpr_injective (List.cons.inj hitems).1).1
      rw [hname] at hitems
      have heach : List.Forall₂ (· = ·) (first :: second :: rest) (first' :: second' :: rest') :=
        forall₂_of_map_eq (fun _ _ _ _ hsame => (Item.toSExpr_injective hsame).2) hitems
      rw [List.forall₂_eq_eq_eq] at heach
      exact ⟨hname, heach⟩

end Domain

/-! ### Statements that are alike -/

/-- Statements that differ at most in how the negative numbers of a difference are written. -/
structure Statement.Alike (s t : Statement) : Prop where
  /-- The atoms are equal. -/
  atom : s.atom = t.atom
  /-- The categories are equal. -/
  category : s.category = t.category
  /-- The elements are equal, or they are the heads of differences and these are alike. -/
  elements : s.elements = t.elements ∨
    s.category = "diff" ∧ ∃ a b, s.elements = [⟨[a]⟩] ∧ t.elements = [⟨[b]⟩] ∧ a.Alike b
  /-- The relations are equal. -/
  relation : s.relation = t.relation
  /-- The right-hand sides are equal. -/
  right : s.right = t.right

/-- Two bounds that are written alike are equal: a bound is no operation. -/
theorem Difference.bound_eq {a b : Term}
    (ha : (∃ value, a = .const (.int value)) ∨ ∃ name, a = .var name)
    (hb : (∃ value, b = .const (.int value)) ∨ ∃ name, b = .var name)
    (h : a.toSExpr = b.toSExpr) : a = b := by
  have haIntegral : a.Integral := by
    rcases ha with ⟨n, rfl⟩ | ⟨name, rfl⟩
    · exact .int n
    · exact .var name
  rcases hb with ⟨n, rfl⟩ | ⟨name, rfl⟩
  · rcases Term.int_of_toSExpr_eq haIntegral h with hsame | ⟨-, -, rfl⟩
    · exact hsame
    · simp at ha
  · exact Term.eq_var_of_toSExpr_eq haIntegral h

section

variable {s t : Statement} {c d : SExpr}

/-- The two sides of a difference are given back, the head up to its negative numbers. -/
theorem Difference.alike_of_lower (hs : Difference.lower s = .ok c)
    (ht : Difference.lower t = .ok c) (hatom : s.atom = t.atom)
    (hscat : s.category = "diff") (htcat : t.category = "diff") : s.Alike t := by
  obtain ⟨a, ha, rfl⟩ := lower_iff_isDifference.mp hs
  obtain ⟨b, hb, hsame⟩ := lower_iff_isDifference.mp ht
  obtain ⟨hheads, hbounds⟩ : a.toSExpr = b.toSExpr ∧ s.right.toSExpr = t.right.toSExpr := by
    simpa [constraint] using hsame
  have halike : a.Alike b := (Term.toSExpr_eq_iff_alike ha.integral hb.integral).mp hheads
  exact
    { atom := hatom
      category := hscat.trans htcat.symm
      elements := Or.inr ⟨hscat, a, b, ha.elements, hb.elements, halike⟩
      relation := ha.relation.trans hb.relation.symm
      right := bound_eq ha.bound hb.bound hbounds }

/-- A domain is given back as it was. -/
theorem Domain.alike_of_lower (hs : Domain.lower s = .ok c) (ht : Domain.lower t = .ok c)
    (hatom : s.atom = t.atom) (hcat : s.category = t.category) : s.Alike t := by
  obtain ⟨x, found, hne, hright, hfound, hrelation, rfl⟩ := lower_eq_ok_iff.mp hs
  obtain ⟨y, others, hne', hright', hothers, hrelation', hsame⟩ := lower_eq_ok_iff.mp ht
  obtain ⟨rfl, rfl⟩ :=
    constraint_injective (items_ne_nil hne hfound) (items_ne_nil hne' hothers) hsame
  have helements : s.elements = t.elements :=
    (elements_eq_map hfound).trans (elements_eq_map hothers).symm
  exact
    { atom := hatom
      category := hcat
      elements := Or.inl helements
      relation := hrelation.trans hrelation'.symm
      right := hright.trans hright'.symm }

/-- No difference is written like a domain. -/
theorem Domain.lower_ne_difference (hs : Domain.lower s = .ok c)
    (ht : Difference.lower t = .ok d) : c ≠ d := by
  obtain ⟨x, found, hne, -, hfound, -, rfl⟩ := lower_eq_ok_iff.mp hs
  obtain ⟨head, -, rfl⟩ := Difference.lower_iff_isDifference.mp ht
  have hitems := items_ne_nil hne hfound
  match found with
  | [.value v] => simp [constraint, Item.toSExpr, Difference.constraint, Difference.relation]
  | [.range lower upper] =>
      simp [constraint, Item.toSExpr, Difference.constraint, Difference.relation]
  | first :: second :: rest => simp [constraint, Difference.constraint, Difference.relation]

/-- Lowering does not look at the atom. -/
theorem Fragment.lower_eq_of_fields (hcategory : s.category = t.category)
    (helements : s.elements = t.elements) (hrelation : s.relation = t.relation)
    (hright : s.right = t.right) : difference.lower s = difference.lower t := by
  cases s
  cases t
  cases hcategory
  cases helements
  cases hrelation
  cases hright
  rfl

/-- Alike heads are written as one tree, and so are the differences on them. -/
theorem Difference.lower_eq_of_heads {a b : Term} (hs : Difference.lower s = .ok c)
    (ht : Difference.lower t = .ok d) (ha : s.elements = [⟨[a]⟩]) (hb : t.elements = [⟨[b]⟩])
    (halike : a.Alike b) (hright : s.right = t.right) : c = d := by
  obtain ⟨a', ha', rfl⟩ := lower_iff_isDifference.mp hs
  obtain ⟨b', hb', rfl⟩ := lower_iff_isDifference.mp ht
  have hheads : a' = a ∧ b' = b := by
    rw [ha'.elements] at ha
    rw [hb'.elements] at hb
    simpa using And.intro ha hb
  rw [hheads.1, hheads.2, constraint, constraint, halike.toSExpr_eq, hright]

/-- **Two statements are lowered to one constraint exactly when they are alike.** -/
theorem Fragment.constraint_eq_iff_alike (hs : difference.lower s = .ok c)
    (ht : difference.lower t = .ok d) (hatom : s.atom = t.atom) : c = d ↔ s.Alike t := by
  constructor
  · rintro rfl
    rcases lower_difference_eq_ok_iff.mp hs with ⟨hscat, hs⟩ | ⟨hscat, hs⟩
    · rcases lower_difference_eq_ok_iff.mp ht with ⟨htcat, ht⟩ | ⟨-, ht⟩
      · exact Difference.alike_of_lower hs ht hatom hscat htcat
      · exact absurd rfl (Domain.lower_ne_difference ht hs)
    · rcases lower_difference_eq_ok_iff.mp ht with ⟨-, ht⟩ | ⟨htcat, ht⟩
      · exact absurd rfl (Domain.lower_ne_difference hs ht)
      · exact Domain.alike_of_lower hs ht hatom (hscat.trans htcat.symm)
  · intro h
    rcases h.elements with hsame | ⟨hcat, a, b, ha, hb, halike⟩
    · have hlower := lower_eq_of_fields h.category hsame h.relation h.right
      rw [hs, ht] at hlower
      exact Except.ok.inj hlower
    · have hscat : difference.lower s = Difference.lower s := if_pos hcat
      have htcat : difference.lower t = Difference.lower t := if_pos (h.category ▸ hcat)
      rw [hscat] at hs
      rw [htcat] at ht
      exact Difference.lower_eq_of_heads hs ht ha hb halike h.right

end

/-! ### Lines -/

namespace Fragment

variable {s t : Statement} {c d : SExpr} {atoms others : List String}

theorem readAll_line (h : difference.outcome atoms s = .ok c)
    (hops : ∀ op ∈ s.operations, isSimple op = true) :
    Form.readAll (difference.line atoms s) = some [(s.assertionTree c).toForm] := by
  rw [line_of_outcome h]
  exact (proper_assertionTree h).readAll_line_iff.mpr ((simple_assertionTree_iff h).mpr hops)

/-- A line is the text of its atom and its constraint, and of no others. -/
theorem line_eq_iff (hs : difference.outcome atoms s = .ok c)
    (ht : difference.outcome others t = .ok d) (hsops : ∀ op ∈ s.operations, isSimple op = true)
    (htops : ∀ op ∈ t.operations, isSimple op = true) :
    difference.line atoms s = difference.line others t ↔ s.atom = t.atom ∧ c = d := by
  constructor
  · intro h
    have hread := readAll_line hs hsops
    rw [h, readAll_line ht htops, Option.some.injEq, List.cons.injEq] at hread
    have htree : t.assertionTree d = s.assertionTree c := SExpr.toForm_injective hread.1
    simp only [Statement.assertionTree, SExpr.app.injEq, List.cons.injEq, SExpr.symbol.injEq,
      true_and, and_true] at htree
    exact ⟨htree.1.symm, htree.2.symm⟩
  · rintro ⟨hatom, rfl⟩
    rw [line_of_outcome hs, line_of_outcome ht, Statement.assertionTree,
      Statement.assertionTree, hatom]

end Fragment

/--
**Lowering loses nothing but the spelling of negative numbers.**  Accepted statements with
simple operations have the same line exactly when they are alike: their atoms, categories,
relations and right-hand sides are equal, and so are their elements, up to the negative numbers
in the head of a difference.  So no difference has the line of a domain.  Among the terms, only
a variable is written like a variable, and only a number like the number, except for the
operation minus on the magnitude of a negative one.
-/
theorem line_determines_statement {batch other : List Statement} {s t : Statement}
    (hs : s ∈ Fragment.difference.accepted batch) (ht : t ∈ Fragment.difference.accepted other)
    (hsops : ∀ op ∈ s.operations, isSimple op = true)
    (htops : ∀ op ∈ t.operations, isSimple op = true) :
    let line := Fragment.difference.line (Statement.atoms batch) s
    let otherLine := Fragment.difference.line (Statement.atoms other) t
    (line = otherLine ↔ s.Alike t) ∧
    (s.category = "diff" → t.category = "dom" → line ≠ otherLine) ∧
    ∀ a b : Term, a.Legible → b.Legible → a.render = b.render →
      a.Alike b ∧ (∀ name, b = .var name → a = .var name) ∧
        ∀ n, b = .const (.int n) → a = .const (.int n) ∨
          Int64.minValue < n ∧ n < 0 ∧ a = .app "-" [.const (.int (-n))] := by
  intro line otherLine
  obtain ⟨-, c, hc⟩ := Fragment.mem_accepted.mp hs
  obtain ⟨-, d, hd⟩ := Fragment.mem_accepted.mp ht
  have hlines : line = otherLine ↔ s.atom = t.atom ∧ c = d :=
    Fragment.line_eq_iff hc hd hsops htops
  have halike : s.atom = t.atom → (c = d ↔ s.Alike t) :=
    Fragment.constraint_eq_iff_alike (Fragment.outcome_eq_ok_iff.mp hc).2
      (Fragment.outcome_eq_ok_iff.mp hd).2
  have hmain : line = otherLine ↔ s.Alike t := by
    rw [hlines]
    exact ⟨fun h => (halike h.1).mp h.2, fun h => ⟨h.atom, (halike h.atom).mpr h⟩⟩
  refine ⟨hmain, fun hscat htcat h => ?_, fun a b ha hb h => ?_⟩
  · have hcategory := (hmain.mp h).category
    rw [hscat, htcat] at hcategory
    exact absurd hcategory (by decide)
  · have htree := ha.toSExpr_eq hb h
    refine ⟨(Term.toSExpr_eq_iff_alike ha.integral hb.integral).mp htree, ?_, ?_⟩
    · rintro name rfl
      exact Term.eq_var_of_toSExpr_eq ha.integral htree
    · rintro n rfl
      exact Term.int_of_toSExpr_eq ha.integral htree

theorem negative_number_is_all_that_is_lost :
    let head (operand : Term) : Term := .app "-" [.var "let", .app "f" [.var "12", operand]]
    let s : Statement :=
      ⟨"a b", "diff", [⟨[head (.const (.int (-3)))]⟩], "<=", .const (.int (-3))⟩
    let t : Statement := { s with elements := [⟨[head (.app "-" [.const (.int 3)])]⟩] }
    let other : Statement := ⟨"x", "dom", [⟨[.const (.int 0)]⟩], "=", .var "true"⟩
    s ∈ Fragment.difference.accepted [s] ∧ t ∈ Fragment.difference.accepted [other, t] ∧
      (∀ op ∈ s.operations, isSimple op = true) ∧ (∀ op ∈ t.operations, isSimple op = true) ∧
      Fragment.difference.line (Statement.atoms [s]) s
        = Fragment.difference.line (Statement.atoms [other, t]) t ∧ s ≠ t ∧ s.Alike t := by
  intro head s t other
  have hs : s ∈ Fragment.difference.accepted [s] := by decide
  have ht : t ∈ Fragment.difference.accepted [other, t] := by decide
  have hsops : ∀ op ∈ s.operations, isSimple op = true := by decide
  have htops : ∀ op ∈ t.operations, isSimple op = true := by decide
  have hline : Fragment.difference.line (Statement.atoms [s]) s
      = Fragment.difference.line (Statement.atoms [other, t]) t := by decide +kernel
  have hne : s ≠ t := by decide
  exact ⟨hs, ht, hsops, htops, hline, hne,
    (line_determines_statement hs ht hsops htops).1.mp hline⟩

end TheoryScript
