/-
The assertions of a batch define its atoms.

Whatever integers the variables are, there is exactly one choice of truth values for the
atoms of the accepted statements that makes every assertion true, and it gives each atom
the truth of its own statement.  So the assertions define the atoms and say nothing about
the variables.

An assertion equates its atom with a formula in which only variables occur.  The name
check keeps the variables of an accepted statement apart from the atoms of the whole
batch, so the value of a formula does not depend on the values of the atoms
(`eval_formula`), and the atoms can be given their values one by one.
-/
import Mathlib.Data.List.Nodup
import TheoryScript.Proofs.Script
import TheoryScript.Proofs.Smt.Value

namespace TheoryScript

open Smt

/-! ### What statements mean -/

namespace Term

/-- One operand is negated; from the first of several the others are subtracted in turn. -/
def subtract : List Int → Int
  | [] => 0
  | [a] => -a
  | a :: b :: rest => rest.foldl (· - ·) (a - b)

mutual

/-- The value of a term whose operations are all minus. -/
def value (ρ : String → Int) : Term → Int
  | var name => ρ name
  | const (.int v) => v.toInt
  | const (.name _) => 0
  | app _ children => subtract (values ρ children)

/-- The values of several terms, in order. -/
def values (ρ : String → Int) : List Term → List Int
  | [] => []
  | t :: rest => t.value ρ :: values ρ rest

end

/-- Whether an element of a domain lists an integer. -/
def lists (k : Int) : Term → Bool
  | const (.int v) => k = v.toInt
  | app _ [const (.int lower), const (.int upper)] => lower.toInt ≤ k && k ≤ upper.toInt
  | _ => false

theorem values_eq_map (ρ : String → Int) (ts : List Term) : values ρ ts = ts.map (value ρ) := by
  induction ts with
  | nil => rfl
  | cons t rest ih => rw [values, ih, List.map_cons]

end Term

/--
Whether a statement holds: a head is at most its bound, or the integer on the right is
among those that a domain lists.
-/
def Statement.holds (ρ : String → Int) (s : Statement) : Bool :=
  if s.category = "dom" then s.listed.any (Term.lists (s.right.value ρ))
  else s.listed.all fun head => head.value ρ ≤ s.right.value ρ

/-! ### The values of formulas -/

section

variable {env : String → Value} {ρ : String → Int}

theorem minus_eq_subtract {ns : List Int} (h : ns ≠ []) : minus ns = some (Term.subtract ns) := by
  match ns with
  | [a] => rfl
  | a :: b :: rest => rfl

theorem eval_integerForm (n : Int) : (integerForm n).eval env = some (.int n) := by
  unfold integerForm
  by_cases hneg : n < 0
  · rw [if_pos hneg]
    show some (Value.int (-(n.natAbs : Int))) = some (.int n)
    rw [show -(n.natAbs : Int) = n by omega]
  · rw [if_neg hneg, Form.eval, show (n.natAbs : Int) = n by omega]

/-- A term is worth the same in a script, if its variables are. -/
theorem Term.eval_form {t : Term} (hfault : Difference.operandFault? t = none)
    (hops : ∀ op ∈ t.operations, op = "-") (henv : ∀ name ∈ t.leaves, env name = .int (ρ name)) :
    t.form.eval env = some (.int (t.value ρ)) := by
  induction t using Term.induct with
  | hvar name => rw [form, Form.eval, henv name (by simp [leaves]), value]
  | hconst value =>
      cases value with
      | int v => exact eval_integerForm v.toInt
      | name text => simp [Difference.operandFault?] at hfault
  | happ operation children ih =>
      obtain ⟨hne, hchildren⟩ := Difference.operandFault?_app.mp hfault
      have hop : operation = "-" := hops operation (by simp [operations])
      have hvalues : ∀ c ∈ children, c.form.eval env = some (.int (c.value ρ)) := by
        intro c hc
        refine ih c hc (hchildren c hc) (fun op h => ?_) (fun name h => ?_)
        · exact hops op (mem_operations_app hc h)
        · exact henv name (mem_leaves_app hc h)
      have hall : Form.evalAll env (children.map form)
          = some ((children.map (value ρ)).map .int) := by
        rw [List.map_map]
        exact Form.evalAll_map hvalues
      rw [form, forms_eq_map, hop, Form.eval_application hall, Value.apply_minus,
        minus_eq_subtract (by simpa using hne), value, values_eq_map]
      rfl

/-- An item is true of the integers that its term lists. -/
theorem eval_membership {name : String} {k : Int} {t : Term} {item : Domain.Item}
    (hitem : Domain.Item.ofTerm t = .ok item) (hname : env name = .int k) :
    (t.membership name).eval env = some (.bool (t.lists k)) := by
  have hsymbol : (Form.symbol name).eval env = some (.int k) := by rw [Form.eval, hname]
  rcases Domain.Item.ofTerm_eq_ok_iff.mp hitem with ⟨v, rfl, -⟩ | ⟨lower, upper, rfl, -, -⟩
  · rw [Term.membership, Form.eval_binary hsymbol (eval_integerForm _)]
    rfl
  · have hlower : (Form.list [.symbol "<=", integerForm lower.toInt, .symbol name]).eval env
        = some (.bool (lower.toInt ≤ k)) := Form.eval_binary (eval_integerForm _) hsymbol
    have hupper : (Form.list [.symbol "<=", .symbol name, integerForm upper.toInt]).eval env
        = some (.bool (k ≤ upper.toInt)) := Form.eval_binary hsymbol (eval_integerForm _)
    rw [Term.membership, Form.eval_binary hlower hupper, Term.lists]
    show some (Value.bool (_ && (_ && true))) = _
    rw [Bool.and_true]
    rfl

theorem eval_disjunction {α : Type} {xs : List α} {form : α → Form} {holds : α → Bool}
    (hne : xs ≠ []) (h : ∀ x ∈ xs, (form x).eval env = some (.bool (holds x))) :
    (disjunction (xs.map form)).eval env = some (.bool (xs.any holds)) := by
  match xs with
  | [x] =>
      rw [List.map_singleton, disjunction, h x (by simp)]
      simp
  | x :: y :: rest =>
      have hall : Form.evalAll env ((x :: y :: rest).map form)
          = some (((x :: y :: rest).map holds).map .bool) := by
        rw [List.map_map]
        exact Form.evalAll_map h
      show (Form.list (.symbol "or" :: (x :: y :: rest).map form)).eval env = _
      rw [Form.eval_application hall, Value.apply_or (by simp), List.any_map]
      rfl

/-- The formula of a domain is true of the integers that one of its terms lists. -/
theorem Domain.eval_listed {es : List Element} {found : List Domain.Item} (hne : es ≠ [])
    (h : List.Forall₂ (fun e item => Domain.Item.ofElement e = .ok item) es found)
    {name : String} {k : Int} (hname : env name = .int k) :
    (disjunction ((es.flatMap Element.terms).map (Term.membership name))).eval env
      = some (.bool ((es.flatMap Element.terms).any (Term.lists k))) := by
  refine eval_disjunction (Domain.terms_ne_nil hne h) fun t ht => ?_
  obtain ⟨item, hitem⟩ := Domain.exists_item (Domain.items_of_elements h) t ht
  exact eval_membership hitem hname

/-- **The formula of an accepted statement is true exactly when the statement holds.** -/
theorem Fragment.eval_formula {s : Statement} {c : SExpr} (hlower : difference.lower s = .ok c)
    (hops : s.category = "diff" → ∀ op ∈ s.operations, op = "-")
    (henv : ∀ name ∈ s.leaves, env name = .int (ρ name)) :
    s.formula.eval env = some (.bool (s.holds ρ)) := by
  rcases lower_difference_eq_ok_iff.mp hlower with ⟨hcat, h⟩ | ⟨hcat, h⟩
  · obtain ⟨head, helements, hhead, hbound, -, -, -⟩ := Difference.lower_eq_ok_iff.mp h
    have hlisted : s.listed = [head] := by simp [Statement.listed, helements]
    have hnot : s.category ≠ "dom" := by
      rw [hcat]
      decide
    have hheadOps : ∀ op ∈ head.operations, op = "-" := by
      intro op hop
      refine hops hcat op ?_
      simp [Statement.operations, Statement.terms, helements, hop]
    have hheadValue : head.form.eval env = some (.int (head.value ρ)) :=
      Term.eval_form hhead hheadOps fun name hname =>
        henv name (mem_leaves_of_listed (by simp [hlisted]) hname)
    obtain ⟨hboundFault, hboundOps⟩ := Difference.bound_facts hbound
    have hboundValue : s.right.form.eval env = some (.int (s.right.value ρ)) :=
      Term.eval_form hboundFault (by simp [hboundOps]) fun name hname =>
        henv name (mem_leaves_of_right hname)
    rw [Statement.formula, if_neg hnot, Statement.holds, if_neg hnot, hlisted]
    show (Form.list [.symbol "<=", head.form, s.right.form]).eval env = _
    rw [Form.eval_binary hheadValue hboundValue, List.all_cons, List.all_nil, Bool.and_true]
    rfl
  · obtain ⟨name, found, hne, hright, hfound, -, -⟩ := Domain.lower_eq_ok_iff.mp h
    have hname : env name = .int (ρ name) :=
      henv name (mem_leaves_of_right (by simp [hright, Term.leaves]))
    rw [Statement.formula, if_pos (show s.category = "dom" from hcat), Statement.holds,
      if_pos (show s.category = "dom" from hcat), hright]
    exact Domain.eval_listed hne hfound hname

end

/-! ### The atoms -/

/-- The values of all names: truth values for some atoms, and integers for all others. -/
def valuation (atoms : List String) (ρ : String → Int) (β : {a // a ∈ atoms} → Bool)
    (name : String) : Value :=
  if h : name ∈ atoms then .bool (β ⟨name, h⟩) else .int (ρ name)

theorem valuation_of_mem {atoms : List String} {ρ : String → Int} {β : {a // a ∈ atoms} → Bool}
    {name : String} (h : name ∈ atoms) : valuation atoms ρ β name = .bool (β ⟨name, h⟩) :=
  dif_pos h

theorem valuation_of_not_mem {atoms : List String} {ρ : String → Int}
    {β : {a // a ∈ atoms} → Bool} {name : String} (h : name ∉ atoms) :
    valuation atoms ρ β name = .int (ρ name) :=
  dif_neg h

/-- The equation of an atom with its formula. -/
def Statement.equationForm (s : Statement) : Form :=
  .list [.symbol "=", .symbol s.atom, s.formula]

namespace Fragment

variable {statements : List Statement} {ρ : String → Int}

/-- The variables of an accepted statement are no atoms of the batch. -/
theorem leaves_not_atoms {s : Statement} (hs : s ∈ difference.accepted statements) :
    ∀ name ∈ s.leaves, name ∉ (difference.accepted statements).map Statement.atom := by
  obtain ⟨-, c, hc⟩ := mem_accepted.mp hs
  have hnames := (Statement.nameError?_eq_none_iff.mp (outcome_eq_ok_iff.mp hc).1).2
  intro name hname hmem
  obtain ⟨t, ht, hatom⟩ := List.mem_map.mp hmem
  refine (hnames name hname).2 ?_
  exact Preamble.mem_atoms.mpr ⟨t, (mem_accepted.mp ht).1, hatom⟩

/-- An assertion is true exactly when its atom is worth what its statement is. -/
theorem eval_equationForm_iff {s : Statement} (hs : s ∈ difference.accepted statements)
    (hops : s.category = "diff" → ∀ op ∈ s.operations, op = "-")
    (β : {a // a ∈ (difference.accepted statements).map Statement.atom} → Bool) :
    s.equationForm.eval (valuation _ ρ β) = some (.bool true) ↔
      valuation _ ρ β s.atom = .bool (s.holds ρ) := by
  obtain ⟨-, c, hc⟩ := mem_accepted.mp hs
  have hformula : s.formula.eval (valuation _ ρ β) = some (.bool (s.holds ρ)) := by
    refine eval_formula (outcome_eq_ok_iff.mp hc).2 hops fun name hname => ?_
    exact valuation_of_not_mem (leaves_not_atoms hs name hname)
  have hatom : s.atom ∈ (difference.accepted statements).map Statement.atom :=
    List.mem_map.mpr ⟨s, hs, rfl⟩
  have hsymbol : (Form.symbol s.atom).eval (valuation _ ρ β)
      = some (.bool (β ⟨s.atom, hatom⟩)) := by
    rw [Form.eval, valuation_of_mem hatom]
  rw [Statement.equationForm, Form.eval_binary hsymbol hformula, valuation_of_mem hatom]
  show some (Value.bool (β ⟨s.atom, hatom⟩ = s.holds ρ)) = _ ↔ _
  simp

/-- Only ranges span anything but minus below an accepted statement, so all is read back. -/
theorem simple_of_minus
    (hops : ∀ s ∈ difference.accepted statements, s.category = "diff" →
      ∀ op ∈ s.operations, op = "-") :
    ∀ s ∈ difference.accepted statements, ∀ op ∈ s.operations, isSimple op = true := by
  intro s hs
  obtain ⟨-, c, hc⟩ := mem_accepted.mp hs
  have hlower := (outcome_eq_ok_iff.mp hc).2
  rcases lower_difference_eq_ok_iff.mp hlower with ⟨hcat, -⟩ | ⟨-, h⟩
  · intro op hop
    rw [hops s hs hcat op hop]
    decide
  · obtain ⟨name, found, -, -, -, -, rfl⟩ := Domain.lower_eq_ok_iff.mp h
    have hlowering : ∀ op ∈ loweringOperators, isSimple op = true := by decide
    exact (simple_operators_iff hlower).mp fun op hop =>
      hlowering op (Domain.operators_constraint name found op hop)

/-- The truth value that a batch gives to an atom: whether its statement holds. -/
def truth (statements : List Statement) (ρ : String → Int) (atom : String) : Bool :=
  (difference.accepted statements).any fun s => s.atom = atom && s.holds ρ

theorem truth_atom {s : Statement} (hs : s ∈ difference.accepted statements)
    (hatoms : ((difference.accepted statements).map Statement.atom).Nodup) :
    truth statements ρ s.atom = s.holds ρ := by
  rw [truth, Bool.eq_iff_iff, List.any_eq_true]
  constructor
  · rintro ⟨t, ht, h⟩
    obtain ⟨hatom, hholds⟩ := Bool.and_eq_true_iff.mp h
    have hsame : t = s := List.inj_on_of_nodup_map hatoms ht hs (by simpa using hatom)
    rwa [hsame] at hholds
  · intro hholds
    exact ⟨s, hs, by simp [hholds]⟩

end Fragment

/--
**The assertions of a batch are a definition of its atoms.**  Whatever the integers are,
one choice of truth values for the accepted atoms makes every assertion true, there is no
other, and with it an atom is true exactly when its statement holds.
-/
theorem assertions_define_atoms {statements : List Statement}
    (hatoms : ((Fragment.difference.accepted statements).map Statement.atom).Nodup)
    (hops : ∀ s ∈ Fragment.difference.accepted statements, s.category = "diff" →
      ∀ op ∈ s.operations, op = "-") (ρ : String → Int) :
    let atoms := (Fragment.difference.accepted statements).map Statement.atom
    ∃ formulas : List Form,
      Form.readAll (Fragment.difference.encodeAll statements).assertions
        = some (formulas.map fun f => .list [.symbol "assert", f]) ∧
      (∃! β : {a // a ∈ atoms} → Bool,
        ∀ f ∈ formulas, f.eval (valuation atoms ρ β) = some (.bool true)) ∧
      ∀ β : {a // a ∈ atoms} → Bool,
        (∀ f ∈ formulas, f.eval (valuation atoms ρ β) = some (.bool true)) →
          ∀ s ∈ Fragment.difference.accepted statements,
            valuation atoms ρ β s.atom = .bool (s.holds ρ) := by
  intro atoms
  have htrue : ∀ β : {a // a ∈ atoms} → Bool,
      (∀ f ∈ (Fragment.difference.accepted statements).map Statement.equationForm,
        f.eval (valuation atoms ρ β) = some (.bool true)) ↔
      ∀ s ∈ Fragment.difference.accepted statements,
        valuation atoms ρ β s.atom = .bool (s.holds ρ) := by
    intro β
    rw [List.forall_mem_map]
    exact forall₂_congr fun s hs => Fragment.eval_equationForm_iff hs (hops s hs) β
  refine ⟨(Fragment.difference.accepted statements).map Statement.equationForm, ?_, ?_,
    fun β => (htrue β).mp⟩
  · rw [(Fragment.reads_assertions (Fragment.simple_of_minus hops)).readAll_eq, List.map_map]
    rfl
  · have htruth : ∀ s ∈ Fragment.difference.accepted statements,
        valuation atoms ρ (fun a => Fragment.truth statements ρ a.1) s.atom
          = .bool (s.holds ρ) := by
      intro s hs
      have hatom : s.atom ∈ atoms := List.mem_map.mpr ⟨s, hs, rfl⟩
      rw [valuation_of_mem hatom, Fragment.truth_atom hs hatoms]
    refine ⟨fun a => Fragment.truth statements ρ a.1, (htrue _).mpr htruth, fun β hβ => ?_⟩
    funext ⟨a, ha⟩
    -- every atom has its statement, and that statement leaves no choice
    obtain ⟨s, hs, rfl⟩ := List.mem_map.mp ha
    have hsame := ((htrue β).mp hβ s hs).trans (htruth s hs).symm
    rw [valuation_of_mem ha, valuation_of_mem ha, Value.bool.injEq] at hsame
    exact hsame

theorem difference_and_domain_define_atoms :
    let bound : Statement :=
      ⟨"a", "diff", [⟨[.app "-" [.var "x", .app "-" [.var "y", .const (.int (-1))]]]⟩], "<=",
        .const (.int (-9223372036854775808))⟩
    let range : Statement :=
      ⟨"b", "dom", [⟨[.const (.int 0)]⟩, ⟨[.app ".." [.const (.int 2), .const (.int 5)]]⟩], "=",
        .var "x"⟩
    let atoms := (Fragment.difference.accepted [bound, range]).map Statement.atom
    atoms.Nodup ∧
      (∀ s ∈ Fragment.difference.accepted [bound, range], s.category = "diff" →
        ∀ op ∈ s.operations, op = "-") ∧
      ∃ formulas : List Form,
        Form.readAll (Fragment.difference.encodeAll [bound, range]).assertions
          = some (formulas.map fun f => .list [.symbol "assert", f]) ∧
        ∀ β : {a // a ∈ atoms} → Bool,
          (∀ f ∈ formulas, f.eval (valuation atoms (fun _ => 3) β) = some (.bool true)) →
            valuation atoms (fun _ => 3) β "a" = .bool false ∧
              valuation atoms (fun _ => 3) β "b" = .bool true := by
  intro bound range atoms
  have hatoms : atoms.Nodup := by decide
  have hops : ∀ s ∈ Fragment.difference.accepted [bound, range], s.category = "diff" →
      ∀ op ∈ s.operations, op = "-" := by decide
  obtain ⟨formulas, hread, -, hvalues⟩ := assertions_define_atoms hatoms hops fun _ => 3
  refine ⟨hatoms, hops, formulas, hread, fun β hβ => ⟨?_, ?_⟩⟩
  · exact hvalues β hβ bound (by decide)
  · exact hvalues β hβ range (by decide)

end TheoryScript
