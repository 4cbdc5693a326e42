/-
The rules of domains.

A domain has elements, is bound to a variable, lists items only, and has the relation `=`,
and its rules are tried in this order.  The rule about items reports the first element from
the left that is none, with the reason for that element.  So neither a later element nor
the relation can hide or replace it.

What an element lists is said here by its own shape (`IsItem`), and so is why it lists
nothing (`NoItem`); the reader of items agrees with both.
-/
import TheoryScript.Proofs.Accepted
import TheoryScript.Proofs.Rules

namespace TheoryScript

namespace Domain

/-! ### Items -/

/-- An element lists one number, or a range of numbers whose bounds are in order. -/
inductive IsItem : Element → Prop
  | value (v : Int64) : IsItem ⟨[.const (.int v)]⟩
  | range {lower upper : Int64} (h : lower.toInt ≤ upper.toInt) :
      IsItem ⟨[.app ".." [.const (.int lower), .const (.int upper)]]⟩

/-- Why an element lists nothing. -/
inductive NoItem : Element → String → Prop
  | terms {e : Element} {reason : String} (h : e.NotSingle reason) : NoItem e reason
  | bounds {children : List Term}
      (h : ∀ lower upper : Int64, children ≠ [.const (.int lower), .const (.int upper)]) :
      NoItem ⟨[.app ".." children]⟩ "range bounds must be integer literals"
  | emptyRange {lower upper : Int64} (h : upper.toInt < lower.toInt) :
      NoItem ⟨[.app ".." [.const (.int lower), .const (.int upper)]]⟩
        ("empty range " ++ toString lower.toInt ++ ".." ++ toString upper.toInt)
  | other {t : Term} (hvalue : ∀ v : Int64, t ≠ .const (.int v))
      (hrange : ∀ children, t ≠ .app ".." children) :
      NoItem ⟨[t]⟩ "a domain element must be an integer or a range l..u"

theorem isItem_iff {e : Element} : IsItem e ↔ ∃ item, Item.ofElement e = .ok item := by
  constructor
  · intro h
    cases h with
    | value v => exact ⟨.value v, rfl⟩
    | @range lower upper h =>
        have hle : ¬upper < lower := Int64.not_lt.mpr (Int64.le_iff_toInt_le.mpr h)
        exact ⟨.range lower upper, by simp [Item.ofElement, Element.soleTerm, Item.ofTerm,
          rangeOperation, hle]⟩
  · intro h
    obtain ⟨item, hitem⟩ := h
    obtain ⟨t, hterms, ht⟩ := Item.ofElement_eq_ok_iff.mp hitem
    obtain rfl : e = ⟨[t]⟩ := by rw [← hterms]
    rcases Item.ofTerm_eq_ok_iff.mp ht with ⟨v, rfl, -⟩ | ⟨lower, upper, rfl, hle, -⟩
    · exact .value v
    · exact .range (Int64.le_iff_toInt_le.mp (Int64.not_lt.mp hle))

/-- A single term that is no item is one for the reason of its fault. -/
theorem noItem_of_ofTerm {t : Term} {fault : ShapeFault} (h : Item.ofTerm t = .error fault) :
    NoItem ⟨[t]⟩ fault.text := by
  unfold Item.ofTerm at h
  split at h
  · cases h
  · rename_i operation children
    by_cases hop : operation = rangeOperation
    · rw [if_pos hop] at h
      subst hop
      split at h
      · rename_i lower upper
        by_cases hlt : upper < lower
        · rw [if_pos hlt] at h
          cases h
          exact .emptyRange (Int64.lt_iff_toInt_lt.mp hlt)
        · rw [if_neg hlt] at h
          cases h
      · rename_i hbounds
        cases h
        exact .bounds hbounds
    · rw [if_neg hop] at h
      cases h
      exact .other (by simp) (by simp [rangeOperation] at hop; simp [hop])
  · cases h
    exact .other (by simp) (by simp)
  · cases h
    exact .other (by simp) (by simp)

theorem ofTerm_of_other {t : Term} (hvalue : ∀ v : Int64, t ≠ .const (.int v))
    (hrange : ∀ children, t ≠ .app ".." children) : Item.ofTerm t = .error .domainElement := by
  cases t with
  | var name => rfl
  | const value =>
      cases value with
      | int v => exact absurd rfl (hvalue v)
      | name text => rfl
  | app operation children =>
      have hop : operation ≠ rangeOperation := by
        intro hop
        exact hrange children (by rw [hop, rangeOperation])
      simp [Item.ofTerm, hop]

/-- **An element is refused as an item for the reason that it lists nothing.** -/
theorem noItem_iff {e : Element} {reason : String} :
    NoItem e reason ↔ ∃ fault, Item.ofElement e = .error fault ∧ reason = fault.text := by
  constructor
  · intro h
    cases h with
    | terms h =>
        obtain ⟨fault, hfault, hreason⟩ := Element.notSingle_iff.mp h
        exact ⟨fault, by rw [Item.ofElement, hfault], hreason⟩
    | @bounds children h =>
        refine ⟨.rangeBounds, ?_, rfl⟩
        show Item.ofTerm (.app rangeOperation children) = .error .rangeBounds
        rw [Item.ofTerm, if_pos rfl]
        exact h
    | @emptyRange lower upper h =>
        refine ⟨.emptyRange lower upper, ?_, rfl⟩
        show Item.ofTerm (.app rangeOperation [.const (.int lower), .const (.int upper)])
          = .error (.emptyRange lower upper)
        rw [Item.ofTerm, if_pos rfl, if_pos (Int64.lt_iff_toInt_lt.mpr h)]
    | other hvalue hrange => exact ⟨.domainElement, ofTerm_of_other hvalue hrange, rfl⟩
  · intro h
    obtain ⟨fault, hfault, rfl⟩ := h
    unfold Item.ofElement at hfault
    cases hterm : e.soleTerm with
    | error found =>
        obtain rfl : found = fault := by simpa [hterm] using hfault
        exact .terms (Element.notSingle_iff.mpr ⟨found, hterm, rfl⟩)
    | ok t =>
        obtain rfl : e = ⟨[t]⟩ := by rw [← Element.soleTerm_eq_ok_iff.mp hterm]
        exact noItem_of_ofTerm hfault

/-! ### The first element that is no item -/

/-- **Reading items fails at the first element that is none, whatever follows it.** -/
theorem items_eq_error_iff {es : List Element} {fault : ShapeFault} :
    items es = .error fault ↔
      ∃ before e after, es = before ++ e :: after ∧ (∀ f ∈ before, IsItem f) ∧
        Item.ofElement e = .error fault := by
  induction es with
  | nil => simp [items]
  | cons first rest ih =>
      simp only [items, List.cons_eq_append_iff]
      cases hfirst : Item.ofElement first with
      | error found =>
          constructor
          · intro h
            cases h
            exact ⟨[], first, rest, Or.inl ⟨rfl, rfl⟩, by simp, hfirst⟩
          · rintro ⟨before, e, after, ⟨rfl, hsplit⟩ | ⟨more, rfl, -⟩, hbefore, he⟩
            · obtain rfl : e = first := (List.cons.inj hsplit).1
              rw [← hfirst, he]
            · obtain ⟨item, hitem⟩ := isItem_iff.mp (hbefore first List.mem_cons_self)
              simp [hfirst] at hitem
      | ok item =>
          show (items rest).map (item :: ·) = .error fault ↔ _
          rw [exceptMap_eq_error_iff, ih]
          constructor
          · rintro ⟨before, e, after, rfl, hbefore, he⟩
            exact ⟨first :: before, e, after, Or.inr ⟨before, rfl, rfl⟩,
              List.forall_mem_cons.mpr ⟨isItem_iff.mpr ⟨item, hfirst⟩, hbefore⟩, he⟩
          · rintro ⟨before, e, after, ⟨rfl, hsplit⟩ | ⟨more, rfl, hsplit⟩, hbefore, he⟩
            · obtain rfl : e = first := (List.cons.inj hsplit).1
              simp [hfirst] at he
            · exact ⟨more, e, after, hsplit, (List.forall_mem_cons.mp hbefore).2, he⟩

theorem items_eq_ok_iff_isItem {es : List Element} :
    (∃ found, items es = .ok found) ↔ ∀ e ∈ es, IsItem e := by
  constructor
  · rintro ⟨found, hfound⟩
    have hread := items_eq_ok_iff.mp hfound
    clear hfound
    induction hread with
    | nil => exact List.forall_mem_nil _
    | cons he _ ih => exact List.forall_mem_cons.mpr ⟨isItem_iff.mpr ⟨_, he⟩, ih⟩
  · intro h
    cases hitems : items es with
    | ok found => exact ⟨found, rfl⟩
    | error fault =>
        obtain ⟨before, e, after, rfl, -, he⟩ := items_eq_error_iff.mp hitems
        obtain ⟨item, hitem⟩ := isItem_iff.mp (h e (by simp))
        simp [hitem] at he

/-! ### The rules -/

/-- There is an element. -/
def someElement : Rule where
  Kept s := s.elements ≠ []
  Reports s error := error = .malformed s.category "a domain needs at least one value or range"

/-- The domain is that of a variable. -/
def boundVariable : Rule where
  Kept s := ∃ name, s.right = .var name
  Reports s error := error = .malformed s.category "a domain must be bound to a variable"

/-- Every element is an item; the first that is none is reported. -/
def listsItems : Rule where
  Kept s := ∀ e ∈ s.elements, IsItem e
  Reports s error :=
    ∃ before e after reason, s.elements = before ++ e :: after ∧ (∀ f ∈ before, IsItem f) ∧
      NoItem e reason ∧ error = .malformed s.category reason

/-- All rules, in the order in which they are tried. -/
def rules : List Rule :=
  [someElement, boundVariable, listsItems, .relation "="]

theorem listsItems_reports_iff {s : Statement} {fault : ShapeFault}
    (h : items s.elements = .error fault) {error : EncodingError} :
    listsItems.Reports s error ↔ error = s.malformed fault := by
  constructor
  · rintro ⟨before, e, after, reason, helements, hbefore, hreason, rfl⟩
    obtain ⟨found, hfound, rfl⟩ := noItem_iff.mp hreason
    have hitems := items_eq_error_iff.mpr ⟨before, e, after, helements, hbefore, hfound⟩
    obtain rfl : fault = found := Except.error.inj (h.symm.trans hitems)
    rfl
  · rintro rfl
    obtain ⟨before, e, after, helements, hbefore, he⟩ := items_eq_error_iff.mp h
    exact ⟨before, e, after, fault.text, helements, hbefore, noItem_iff.mpr ⟨fault, he, rfl⟩, rfl⟩

/-- **A statement is refused for the first rule that it breaks.** -/
theorem lower_eq_error_iff {s : Statement} {error : EncodingError} :
    lower s = .error error ↔ FirstBroken rules s error := by
  unfold lower rules
  by_cases helements : s.elements = []
  · have hbroken : ¬someElement.Kept s := not_not_intro helements
    rw [firstBroken_cons_of_broken hbroken, if_pos (List.isEmpty_iff.mpr helements),
      Except.error.injEq]
    exact eq_comm
  rw [firstBroken_cons_of_kept (r := someElement) helements,
    if_neg (mt List.isEmpty_iff.mp helements)]
  cases hright : s.right with
  | const value =>
      have hbroken : ¬boundVariable.Kept s := by simp [boundVariable, hright]
      rw [firstBroken_cons_of_broken hbroken]
      show Except.error _ = _ ↔ _
      rw [Except.error.injEq]
      exact eq_comm
  | app operation children =>
      have hbroken : ¬boundVariable.Kept s := by simp [boundVariable, hright]
      rw [firstBroken_cons_of_broken hbroken]
      show Except.error _ = _ ↔ _
      rw [Except.error.injEq]
      exact eq_comm
  | var name =>
      have hbound : boundVariable.Kept s := ⟨name, hright⟩
      rw [firstBroken_cons_of_kept hbound]
      cases hitems : items s.elements with
      | error fault =>
          have hbroken : ¬listsItems.Kept s := by
            intro hkept
            obtain ⟨found, hfound⟩ := items_eq_ok_iff_isItem.mpr hkept
            simp [hitems] at hfound
          rw [firstBroken_cons_of_broken hbroken, listsItems_reports_iff hitems]
          show Except.error _ = _ ↔ _
          rw [Except.error.injEq]
          exact eq_comm
      | ok found =>
          have hkept : listsItems.Kept s := items_eq_ok_iff_isItem.mp ⟨found, hitems⟩
          rw [firstBroken_cons_of_kept hkept,
            ← firstBroken_singleton_iff (Rule.relation_testedBy s "=")]
          cases hrelation : s.relationError? "=" with
          | none => simp [relation, hrelation]
          | some broken => simp [relation, hrelation]

theorem rules_kept_iff {s : Statement} :
    (∀ r ∈ rules, r.Kept s) ↔ ∃ c, lower s = .ok c := by
  constructor
  · intro hkept
    cases hlower : lower s with
    | error error => exact absurd (lower_eq_error_iff.mp hlower) (not_firstBroken_of_kept hkept)
    | ok c => exact ⟨c, rfl⟩
  · rintro ⟨c, hc⟩
    obtain ⟨name, found, helements, hright, hfound, hrelation, -⟩ := lower_eq_ok_iff.mp hc
    have hitems := items_eq_ok_iff_isItem.mp ⟨found, items_eq_ok_iff.mpr hfound⟩
    simp only [rules, List.forall_mem_cons]
    exact ⟨helements, ⟨name, hright⟩, hitems, hrelation, List.forall_mem_nil _⟩

/-- A rule in front of the relation is broken whatever the relation is. -/
theorem firstBroken_of_relation {s : Statement} {error : EncodingError}
    (h : FirstBroken [someElement, boundVariable, listsItems] s error) (relation : String) :
    FirstBroken rules { s with relation } error := by
  cases h with
  | here hbroken herror => exact .here hbroken herror
  | later helements h =>
      refine .later helements ?_
      cases h with
      | here hbroken herror => exact .here hbroken herror
      | later hbound h =>
          refine .later hbound ?_
          cases h with
          | here hbroken herror => exact .here hbroken herror
          | later _ h => exact absurd h not_firstBroken_nil

/-- The first element that is no item is reported whatever follows it. -/
theorem firstBroken_of_noItem {s : Statement} {before after : List Element} {e : Element}
    {reason name : String} (hright : s.right = .var name)
    (helements : s.elements = before ++ e :: after) (hbefore : ∀ f ∈ before, IsItem f)
    (hreason : NoItem e reason) : FirstBroken rules s (.malformed s.category reason) := by
  have hnot : ¬IsItem e := by
    intro hitem
    obtain ⟨item, hok⟩ := isItem_iff.mp hitem
    obtain ⟨fault, herror, -⟩ := noItem_iff.mp hreason
    simp [hok] at herror
  have hsome : someElement.Kept s := by simp [someElement, helements]
  have hbroken : ¬listsItems.Kept s := by
    intro hkept
    exact hnot (hkept e (by simp [helements]))
  exact .later hsome (.later ⟨name, hright⟩
    (.here hbroken ⟨before, e, after, reason, helements, hbefore, hreason, rfl⟩))

theorem lower_of_category {s : Statement} (hcat : s.category = "dom") :
    Fragment.difference.lower s = lower s := by
  have hne : s.category ≠ Difference.category := by
    rw [hcat]
    decide
  exact (if_neg hne).trans (if_pos hcat)

theorem encode_eq_error_iff {s : Statement} (hcat : s.category = "dom") {error : EncodingError} :
    Fragment.difference.encode s = .error error ↔ FirstBroken rules s error := by
  rw [Fragment.encode_eq_error_iff_lower, lower_of_category hcat, lower_eq_error_iff]

end Domain

/--
**A domain is encoded when it keeps all rules, and refused for the first that it breaks.**
The rules are: an element, a variable, items only, and the relation.  What is refused for
one of the first three is refused for it under every relation, and the first element that is
no item is what is reported whatever elements follow it.
-/
theorem domain_is_refused_for_first_broken_rule {s : Statement} (hcat : s.category = "dom") :
    ((∃ text, Fragment.difference.encode s = .ok text) ↔ ∀ r ∈ Domain.rules, r.Kept s) ∧
    (∀ error, Fragment.difference.encode s = .error error ↔ FirstBroken Domain.rules s error) ∧
    (∀ error, FirstBroken [Domain.someElement, Domain.boundVariable, Domain.listsItems] s error →
      ∀ relation, Fragment.difference.encode { s with relation } = .error error) ∧
    ∀ name before e reason, s.right = .var name → (∀ f ∈ before, Domain.IsItem f) →
      Domain.NoItem e reason → ∀ later relation,
        Fragment.difference.encode { s with elements := before ++ e :: later, relation }
          = .error (.malformed "dom" reason) := by
  refine ⟨?_, fun error => Domain.encode_eq_error_iff hcat, ?_, ?_⟩
  · rw [Domain.rules_kept_iff, Fragment.encode, Domain.lower_of_category hcat]
    cases Domain.lower s with
    | error found => simp [Except.map]
    | ok c => simp [Except.map]
  · intro error hfirst relation
    have hchanged : ({ s with relation } : Statement).category = "dom" := hcat
    exact (Domain.encode_eq_error_iff hchanged).mpr
      (Domain.firstBroken_of_relation hfirst relation)
  · intro name before e reason hright hbefore hreason later relation
    let t : Statement := { s with elements := before ++ e :: later, relation }
    have hchanged : t.category = "dom" := hcat
    have hfirst : FirstBroken Domain.rules t (.malformed t.category reason) :=
      Domain.firstBroken_of_noItem hright rfl hbefore hreason
    rw [hchanged] at hfirst
    exact (Domain.encode_eq_error_iff hchanged).mpr hfirst

theorem first_empty_range_is_reported :
    let range (lower upper : Int64) : Element :=
      ⟨[.app ".." [.const (.int lower), .const (.int upper)]]⟩
    let s : Statement := ⟨"a", "dom", [⟨[.const (.int 7)]⟩, range 5 (-1), ⟨[]⟩], "<=", .var "x"⟩
    let t : Statement :=
      { s with elements := [range Int64.minValue Int64.maxValue], relation := "=" }
    (s.category = "dom" ∧
      Fragment.difference.encode s = .error (.malformed "dom" "empty range 5..-1") ∧
      FirstBroken Domain.rules s (.malformed "dom" "empty range 5..-1")) ∧
    t.category = "dom" ∧ (∃ text, Fragment.difference.encode t = .ok text) ∧
      ∀ r ∈ Domain.rules, r.Kept t := by
  intro range s t
  have hs : Fragment.difference.encode s = .error (.malformed "dom" "empty range 5..-1") := by
    decide +kernel
  have ht : ∃ text, Fragment.difference.encode t = .ok text := by
    refine ⟨"(and (<= (- 9223372036854775808) x) (<= x 9223372036854775807))", ?_⟩
    decide +kernel
  exact ⟨⟨rfl, hs, ((domain_is_refused_for_first_broken_rule rfl).2.1 _).mp hs⟩,
    rfl, ht, (domain_is_refused_for_first_broken_rule rfl).1.mp ht⟩

end TheoryScript
