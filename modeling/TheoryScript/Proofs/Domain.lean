/-
The meaning of domains.

The constraint of an accepted domain is true of exactly the integers that its elements list,
be they within the range of 64 bits or not, and no name in it is free but that of its variable.
What an element lists is said here of the element alone (`Lists`), so a domain means the union
of its elements (`eval_constraint`).  Since it is a union, nothing changes with the order of the
elements, with repetitions, or when one value is written as a range (`SameItems`).
-/
import TheoryScript.Proofs.Meaning
import TheoryScript.Proofs.Rules.Domain

namespace TheoryScript

open Smt

/-! ### The free symbols of a form -/

namespace Smt

namespace Form

mutual

/-- The names in a form, those that are applied and those that stand as arguments. -/
def names : Form → List String
  | symbol name => [name]
  | numeral _ => []
  | list items => namesAll items

/-- The names in several forms, one form after the other. -/
def namesAll : List Form → List String
  | [] => []
  | f :: rest => f.names ++ namesAll rest

end

theorem namesAll_eq_flatMap (fs : List Form) : namesAll fs = fs.flatMap names := by
  induction fs with
  | nil => rfl
  | cons f rest ih => rw [namesAll, ih, List.flatMap_cons]

/-- The symbols of a form to which the theories give no meaning. -/
def free (f : Form) : List String :=
  f.names.filter (· ∉ theorySymbols)

end Form

/-- The names in the form of a tree are its operators and its arguments. -/
theorem SExpr.mem_names_toForm {e : SExpr} {name : String} :
    name ∈ e.toForm.names ↔ name ∈ e.operators ∨ name ∈ e.symbols := by
  induction e using SExpr.induct with
  | hsymbol x => simp [toForm, Form.names, operators, symbols]
  | hnumeral value => simp [toForm, Form.names, operators, symbols]
  | happ operator arguments ih =>
      have hall : name ∈ Form.namesAll (toForms arguments) ↔
          name ∈ operatorsAll arguments ∨ name ∈ symbolsAll arguments := by
        simp only [Form.namesAll_eq_flatMap, toForms_eq_map, operatorsAll_eq_flatMap,
          symbolsAll_eq_flatMap, List.flatMap_map, List.mem_flatMap, ← exists_or, ← and_or_left]
        exact exists_congr fun a => and_congr_right (ih a)
      rw [toForm, Form.names, Form.namesAll, Form.names, List.mem_append, List.mem_singleton, hall,
        operators, symbols, List.mem_cons, or_assoc]

end Smt

namespace Domain

/-! ### What elements list -/

/-- An integer is the value of an element, or lies in its range. -/
inductive Lists (k : Int) : Element → Prop
  | value {v : Int64} (h : k = v.toInt) : Lists k ⟨[.const (.int v)]⟩
  | range {lower upper : Int64} (hlower : lower.toInt ≤ k) (hupper : k ≤ upper.toInt) :
      Lists k ⟨[.app ".." [.const (.int lower), .const (.int upper)]]⟩

/-- An item lists what its one term does. -/
theorem IsItem.lists_iff {e : Element} (h : IsItem e) {k : Int} :
    Lists k e ↔ ∃ t ∈ e.terms, t.lists k = true := by
  cases h with
  | value v =>
      simp only [List.mem_singleton, exists_eq_left, Term.lists, decide_eq_true_eq]
      constructor
      · intro h
        cases h with
        | value h => exact h
      · exact .value
  | @range lower upper _ =>
      simp only [List.mem_singleton, exists_eq_left, Term.lists, Bool.and_eq_true,
        decide_eq_true_eq]
      constructor
      · intro h
        cases h with
        | range hlower hupper => exact ⟨hlower, hupper⟩
      · rintro ⟨hlower, hupper⟩
        exact .range hlower hupper

/-- No item is empty: a value lists itself, and a range its lower bound. -/
theorem IsItem.exists_lists {e : Element} (h : IsItem e) : ∃ v : Int64, Lists v.toInt e := by
  cases h with
  | value v => exact ⟨v, .value rfl⟩
  | @range lower upper h => exact ⟨lower, .range (Int.le_refl _) h⟩

/--
The same items: in any order, each any number of times, and one value as such or as the range
from it to itself.
-/
inductive SameItems : List Element → List Element → Prop
  | perm {es fs : List Element} (h : es.Perm fs) : SameItems es fs
  | repeated {e : Element} {es : List Element} (h : e ∈ es) : SameItems (e :: es) es
  | single (v : Int64) (es : List Element) :
      SameItems (⟨[.app ".." [.const (.int v), .const (.int v)]]⟩ :: es)
        (⟨[.const (.int v)]⟩ :: es)
  | symm {es fs : List Element} (h : SameItems es fs) : SameItems fs es
  | trans {es fs gs : List Element} (h : SameItems es fs) (h' : SameItems fs gs) :
      SameItems es gs

theorem lists_single_iff {k : Int} {v : Int64} :
    Lists k ⟨[.app ".." [.const (.int v), .const (.int v)]]⟩ ↔ Lists k ⟨[.const (.int v)]⟩ := by
  constructor
  · intro h
    cases h with
    | range hlower hupper => exact .value (Int.le_antisymm hupper hlower)
  · intro h
    cases h with
    | value h => exact .range (Int.le_of_eq h.symm) (Int.le_of_eq h)

/-- **The same items list the same integers.** -/
theorem SameItems.exists_lists_iff {es fs : List Element} (h : SameItems es fs) (k : Int) :
    (∃ e ∈ es, Lists k e) ↔ ∃ e ∈ fs, Lists k e := by
  induction h with
  | perm h => simp only [h.mem_iff]
  | @repeated e es h =>
      simp only [List.exists_mem_cons_iff, or_iff_right_iff_imp]
      exact fun hlists => ⟨e, h, hlists⟩
  | single v es => simp only [List.exists_mem_cons_iff, lists_single_iff]
  | symm _ ih => exact ih.symm
  | trans _ _ ih ih' => exact ih.trans ih'

/-! ### What constraints mean -/

section

variable {es : List Element} {found : List Item} {name : String}

theorem isItem_of_items (h : List.Forall₂ (fun e item => Item.ofElement e = .ok item) es found) :
    ∀ e ∈ es, IsItem e :=
  items_eq_ok_iff_isItem.mp ⟨found, items_eq_ok_iff.mpr h⟩

/-- **A domain is true of the integers that some element lists.** -/
theorem eval_constraint (hne : es ≠ [])
    (h : List.Forall₂ (fun e item => Item.ofElement e = .ok item) es found)
    {env : String → Value} {k : Int} (hname : env name = .int k) :
    ∃ b, (constraint name found).toForm.eval env = some (.bool b) ∧
      (b = true ↔ ∃ e ∈ es, Lists k e) := by
  refine ⟨(es.flatMap Element.terms).any (Term.lists k), ?_, ?_⟩
  · rw [toForm_constraint, toForms_items (items_of_elements h)]
    exact eval_listed hne h hname
  · rw [List.any_flatMap, List.any_eq_true]
    refine exists_congr fun e => and_congr_right fun he => ?_
    rw [(isItem_of_items h e he).lists_iff, List.any_eq_true]

/-- Only the variable of a domain is free in its constraint. -/
theorem mem_free_constraint (hne : found ≠ []) (hname : symbolFault? name = none) {n : String} :
    n ∈ (constraint name found).toForm.free ↔ n = name := by
  have htheory : ∀ op ∈ loweringOperators, op ∈ theorySymbols := by decide
  have hown : name ∉ theorySymbols := (symbolFault?_eq_none_iff.mp hname).2.2
  rw [Form.free, List.mem_filter, SExpr.mem_names_toForm, mem_symbols_constraint hne,
    decide_eq_true_eq]
  constructor
  · rintro ⟨hoperator | rfl, hfree⟩
    · exact absurd (htheory n (operators_constraint name found n hoperator)) hfree
    · rfl
  · rintro rfl
    exact ⟨Or.inr rfl, hown⟩

/-- The text of a domain reads as its constraint. -/
theorem readAll_constraint (hne : found ≠ []) (hname : symbolFault? name = none) :
    Form.readAll (constraint name found).render = some [(constraint name found).toForm] := by
  have hquotable : isQuotable name = true := (symbolFault?_eq_none_iff.mp hname).2.1
  have hlowering : ∀ op ∈ loweringOperators, isSimple op = true := by decide
  have hback := SExpr.readsBack (proper_constraint hquotable hne) fun op hop =>
    hlowering op (operators_constraint name found op hop)
  exact hback.readAll_render

end

/-- The text of an accepted domain is the constraint of its variable over its items. -/
theorem exists_of_encode {s : Statement} (hcat : s.category = "dom") {text : String}
    (h : Fragment.difference.encode s = .ok text) :
    ∃ name found, s.right = .var name ∧ s.elements ≠ [] ∧
      List.Forall₂ (fun e item => Item.ofElement e = .ok item) s.elements found ∧
      text = (constraint name found).render := by
  obtain ⟨c, hc, rfl⟩ := Fragment.encode_eq_ok_iff_lower.mp h
  rw [lower_of_category hcat] at hc
  obtain ⟨name, found, hne, hright, hfound, -, rfl⟩ := lower_eq_ok_iff.mp hc
  exact ⟨name, found, hright, hne, hfound, rfl⟩

end Domain

/--
**An accepted domain means the integers that its elements list.**  Its text reads as one
formula, in which its variable alone is free and which is true of an integer exactly when some
element lists it; some integer of 64 bits is always listed.  Two domains of one variable have
the same meaning when their elements are the same up to order, repetition and the writing of
single values.
-/
theorem domain_means_what_its_elements_list {s : Statement} {text : String}
    (hcat : s.category = "dom") (htext : Fragment.difference.encode s = .ok text)
    (hname : ∀ name, s.right = .var name → symbolFault? name = none) :
    ∃ name f, s.right = .var name ∧ Form.readAll text = some [f] ∧
      (∀ n, n ∈ f.free ↔ n = name) ∧
      (∀ env k, env name = .int k → ∃ b, f.eval env = some (.bool b) ∧
        (b = true ↔ ∃ e ∈ s.elements, Domain.Lists k e)) ∧
      (∃ v : Int64, ∀ env, env name = .int v.toInt → f.eval env = some (.bool true)) ∧
      ∀ t text', t.category = "dom" → t.right = .var name →
        Fragment.difference.encode t = .ok text' → Domain.SameItems s.elements t.elements →
          ∃ g, Form.readAll text' = some [g] ∧
            ∀ env k, env name = .int k → g.eval env = f.eval env := by
  obtain ⟨name, found, hright, hne, hfound, rfl⟩ := Domain.exists_of_encode hcat htext
  have hvalid := hname name hright
  have hitems := Domain.items_ne_nil hne hfound
  refine ⟨name, (Domain.constraint name found).toForm, hright,
    Domain.readAll_constraint hitems hvalid, fun n => Domain.mem_free_constraint hitems hvalid,
    fun env k henv => Domain.eval_constraint hne hfound henv, ?_, ?_⟩
  · obtain ⟨e, rest, helements⟩ := List.exists_cons_of_ne_nil hne
    have he : e ∈ s.elements := by simp [helements]
    obtain ⟨v, hv⟩ := (Domain.isItem_of_items hfound e he).exists_lists
    refine ⟨v, fun env henv => ?_⟩
    obtain ⟨b, heval, hb⟩ := Domain.eval_constraint hne hfound henv
    rw [heval, hb.mpr ⟨e, he, hv⟩]
  · intro t text' hcat' hright' htext' hsame
    obtain ⟨name', found', hright'', hne', hfound', rfl⟩ := Domain.exists_of_encode hcat' htext'
    obtain rfl : name' = name := Term.var.inj (hright''.symm.trans hright')
    refine ⟨_, Domain.readAll_constraint (Domain.items_ne_nil hne' hfound') hvalid, ?_⟩
    intro env k henv
    obtain ⟨b, heval, hb⟩ := Domain.eval_constraint hne hfound henv
    obtain ⟨b', heval', hb'⟩ := Domain.eval_constraint hne' hfound' henv
    have hlists : b' = true ↔ b = true := by rw [hb, hb', hsame.exists_lists_iff]
    rw [heval, heval', Bool.eq_iff_iff.mpr hlists]

theorem repeated_value_as_range_means_the_same :
    let range (lower upper : Int64) : Element :=
      ⟨[.app ".." [.const (.int lower), .const (.int upper)]]⟩
    let value (v : Int64) : Element := ⟨[.const (.int v)]⟩
    let s : Statement := ⟨"a", "dom", [range (-3) 0, value 7], "=", .var "let"⟩
    let t : Statement := { s with elements := [range 7 7, range (-3) 0, value 7] }
    let text := "(or (and (<= (- 3) |let|) (<= |let| 0)) (= |let| 7))"
    let text' :=
      "(or (and (<= 7 |let|) (<= |let| 7)) (and (<= (- 3) |let|) (<= |let| 0)) (= |let| 7))"
    (s.category = "dom" ∧ Fragment.difference.encode s = .ok text ∧
      ∀ name, s.right = .var name → symbolFault? name = none) ∧
    (Fragment.difference.encode t = .ok text' ∧ Domain.SameItems s.elements t.elements) ∧
    ∃ f g, Form.readAll text = some [f] ∧ Form.readAll text' = some [g] ∧
      (∀ env, env "let" = .int (-1) → g.eval env = some (.bool true)) ∧
      ∀ env, env "let" = .int 9223372036854775808 → g.eval env = some (.bool false) := by
  intro range value s t text text'
  have hs : Fragment.difference.encode s = .ok text := by decide +kernel
  have ht : Fragment.difference.encode t = .ok text' := by decide +kernel
  have hname : ∀ name, s.right = .var name → symbolFault? name = none := by
    rintro name h
    cases h
    decide
  have hsame : Domain.SameItems s.elements t.elements :=
    .symm (.trans (.single 7 _) (.repeated (by simp [value])))
  obtain ⟨name, f, hright, hf, -, hmeaning, -, hothers⟩ :=
    domain_means_what_its_elements_list rfl hs hname
  obtain rfl : "let" = name := Term.var.inj hright
  obtain ⟨g, hg, hequal⟩ := hothers t text' rfl rfl ht hsame
  refine ⟨⟨rfl, hs, hname⟩, ⟨ht, hsame⟩, f, g, hf, hg, fun env henv => ?_, fun env henv => ?_⟩
  · obtain ⟨b, heval, hb⟩ := hmeaning env _ henv
    rw [hequal env _ henv, heval, hb.mpr ⟨range (-3) 0, by simp [s], .range (by decide) (by decide)⟩]
  · obtain ⟨b, heval, hb⟩ := hmeaning env _ henv
    have hnone : ¬∃ e ∈ s.elements, Domain.Lists 9223372036854775808 e := by
      rintro ⟨e, he, hlists⟩
      rcases List.mem_pair.mp he with rfl | rfl
      · cases hlists with
        | range _ hupper => exact absurd hupper (by decide)
      · cases hlists with
        | value h => exact absurd h (by decide)
    rw [hequal env _ henv, heval, Bool.eq_false_iff.mpr (mt hb.mp hnone)]

end TheoryScript
