/-
Rules that are tried in order.

A category of statements is a list of rules.  A rule says which statements keep it, and
which error is reported about one that does not.  The rules are tried in order, so the
error about a statement is that of the first rule that it breaks, and the rules behind that
one have no say (`FirstBroken`).

A check that answers with an optional error tests a rule when its answers are those of the
rule (`Rule.TestedBy`).  Checks tried one after the other then find the first broken rule
(`firstBroken_iff_or`), so each check is compared with its rule on its own.
-/
import TheoryScript.Fragment.Shape

namespace TheoryScript

/-- A rule about statements. -/
structure Rule where
  /-- The statement keeps the rule. -/
  Kept : Statement → Prop
  /-- The error is what is reported about a statement that breaks the rule. -/
  Reports : Statement → EncodingError → Prop

/-- The relation of a statement must be the one allowed. -/
def Rule.relation (allowed : String) : Rule where
  Kept s := s.relation = allowed
  Reports s error := error = .unsupportedOperator s.category .relation s.relation allowed

/-- The error is that of the first rule that the statement breaks. -/
inductive FirstBroken : List Rule → Statement → EncodingError → Prop
  | here {r : Rule} {rest : List Rule} {s : Statement} {error : EncodingError}
      (hbroken : ¬r.Kept s) (herror : r.Reports s error) : FirstBroken (r :: rest) s error
  | later {r : Rule} {rest : List Rule} {s : Statement} {error : EncodingError}
      (hkept : r.Kept s) (hrest : FirstBroken rest s error) : FirstBroken (r :: rest) s error

/-! ### The first broken rule -/

section

variable {r : Rule} {rest : List Rule} {s : Statement} {error : EncodingError}

theorem not_firstBroken_nil : ¬FirstBroken [] s error := by
  intro h
  cases h

theorem firstBroken_cons_of_kept (h : r.Kept s) :
    FirstBroken (r :: rest) s error ↔ FirstBroken rest s error := by
  constructor
  · intro hfirst
    cases hfirst with
    | here hbroken _ => exact absurd h hbroken
    | later _ hrest => exact hrest
  · exact .later h

theorem firstBroken_cons_of_broken (h : ¬r.Kept s) :
    FirstBroken (r :: rest) s error ↔ r.Reports s error := by
  constructor
  · intro hfirst
    cases hfirst with
    | here _ herror => exact herror
    | later hkept _ => exact absurd hkept h
  · exact .here h

/-- A statement that keeps all rules has no first broken one. -/
theorem not_firstBroken_of_kept {rules : List Rule} (h : ∀ r ∈ rules, r.Kept s) :
    ¬FirstBroken rules s error := by
  induction rules with
  | nil => exact not_firstBroken_nil
  | cons r rest ih =>
      obtain ⟨hkept, hrest⟩ := List.forall_mem_cons.mp h
      rw [firstBroken_cons_of_kept hkept]
      exact ih hrest

end

/-! ### Checks -/

/-- A check of a statement answers as a rule does. -/
structure Rule.TestedBy (r : Rule) (s : Statement) (answer : Option EncodingError) : Prop where
  /-- The check passes when the rule is kept. -/
  kept : answer = none ↔ r.Kept s
  /-- The check fails with the errors that the rule reports. -/
  reports : ¬r.Kept s → ∀ error, answer = some error ↔ r.Reports s error

/-- **Checks that are tried one after the other find the first broken rule.** -/
theorem firstBroken_iff_or {r : Rule} {rest : List Rule} {s : Statement}
    {answer more : Option EncodingError} (h : r.TestedBy s answer)
    (hrest : ∀ error, more = some error ↔ FirstBroken rest s error) (error : EncodingError) :
    answer.or more = some error ↔ FirstBroken (r :: rest) s error := by
  by_cases hkept : r.Kept s
  · rw [h.kept.mpr hkept, Option.none_or, firstBroken_cons_of_kept hkept]
    exact hrest error
  · obtain ⟨found, hfound⟩ := Option.ne_none_iff_exists'.mp (mt h.kept.mp hkept)
    rw [firstBroken_cons_of_broken hkept, ← h.reports hkept, hfound, Option.some_or]

/-- The last check has no rule behind it. -/
theorem firstBroken_singleton_iff {r : Rule} {s : Statement} {answer : Option EncodingError}
    (h : r.TestedBy s answer) (error : EncodingError) :
    answer = some error ↔ FirstBroken [r] s error := by
  have hrest : ∀ error, none = some error ↔ FirstBroken [] s error := by
    simp [not_firstBroken_nil]
  rw [← firstBroken_iff_or h hrest error, Option.or_none]

/-- The relation is checked as its rule says. -/
theorem Rule.relation_testedBy (s : Statement) (allowed : String) :
    (Rule.relation allowed).TestedBy s (s.relationError? allowed) := by
  unfold Statement.relationError? Rule.relation
  by_cases h : s.relation = allowed
  · rw [if_pos h]
    exact ⟨by simp [h], fun hbroken => absurd h hbroken⟩
  · rw [if_neg h]
    exact ⟨by simp [h], fun _ error => by simp [eq_comm]⟩

/-! ### Elements with one term -/

/-- Why an element does not have exactly one term. -/
inductive Element.NotSingle (e : Element) : String → Prop
  | empty (h : e.terms = []) : e.NotSingle "empty element"
  | several (h : 2 ≤ e.terms.length) : e.NotSingle "an element must hold exactly one term"

/-- The sole term of an element is missing for the reason that is given. -/
theorem Element.notSingle_iff {e : Element} {reason : String} :
    e.NotSingle reason ↔ ∃ fault, e.soleTerm = .error fault ∧ reason = fault.text := by
  constructor
  · intro h
    unfold Element.soleTerm
    cases h with
    | empty hnone => exact ⟨.emptyElement, by rw [hnone], rfl⟩
    | several hmany =>
        match hterms : e.terms with
        | [] => simp [hterms] at hmany
        | [t] => simp [hterms] at hmany
        | t :: u :: rest => exact ⟨.severalTerms, rfl, rfl⟩
  · rintro ⟨fault, hfault, rfl⟩
    unfold Element.soleTerm at hfault
    match hterms : e.terms with
    | [] =>
        obtain rfl : .emptyElement = fault := by simpa [hterms] using hfault
        exact .empty hterms
    | [t] => simp [hterms] at hfault
    | t :: u :: rest =>
        obtain rfl : .severalTerms = fault := by simpa [hterms] using hfault
        exact .several (by simp [hterms])

end TheoryScript
