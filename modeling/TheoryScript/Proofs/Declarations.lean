/-
What a header declares.

A header and the name check apply one rule: a name must be declarable, and a variable must
not be an atom of the batch.  The header applies it to the sets of all atoms and of all
variables, the check to one statement at a time, so the two are compared name by name.

Whether a header declares a name is asked of its text, as a reader sees it, so that a name
is the same with and without bars.  The same reader sees which names an assertion uses.  What
it finds at the head of a list is an operator, and the names elsewhere are constants; an
operation is written as it is, so a line is asked only where the operations are simple.
-/
import Mathlib.Data.List.Nodup
import TheoryScript.Proofs.Script

namespace TheoryScript

open Smt

/-! ### Declarations in a text -/

/-- The name and the sort that a command declares, if it declares a constant. -/
def declaration? : Form → Option (String × String)
  | .list [.symbol "declare-fun", .symbol name, .list [], .symbol sort] => some (name, sort)
  | _ => none

/-- The constants that the commands of a script declare, in order, with their sorts. -/
def declarations (script : List Form) : List (String × String) :=
  script.filterMap declaration?

theorem declarations_forms (p : Preamble) :
    declarations p.forms = p.booleans.map (·, "Bool") ++ p.integers.map (·, "Int") := by
  have hsort : ∀ (sort : String) (names : List String),
      (names.map (declarationForm · sort)).filterMap declaration? = names.map (·, sort) := by
    intro sort names
    induction names with
    | nil => rfl
    | cons name names ih =>
        rw [List.map_cons, List.filterMap_cons, ih]
        rfl
  rw [declarations, Preamble.forms, List.filterMap_cons, List.filterMap_append, hsort, hsort]
  rfl

namespace Preamble

variable {p : Preamble}

theorem mem_declarations_bool {name : String} :
    (name, "Bool") ∈ declarations p.forms ↔ name ∈ p.booleans := by
  rw [declarations_forms]
  simp

theorem mem_declarations_int {name : String} :
    (name, "Int") ∈ declarations p.forms ↔ name ∈ p.integers := by
  rw [declarations_forms]
  simp

theorem declarations_of_sort (sort : String) :
    ((declarations p.forms).filter (·.2 = sort)).map Prod.fst
      = (if sort = "Bool" then p.booleans else []) ++ (if sort = "Int" then p.integers else []) := by
  have hsort : ∀ (own : String) (names : List String),
      ((names.map (·, own)).filter (·.2 = sort)).map Prod.fst
        = if sort = own then names else [] := by
    intro own names
    by_cases h : sort = own
    · simp [h, List.filter_map, Function.comp_def]
    · simp [h, Ne.symm h, List.filter_map, Function.comp_def]
  rw [declarations_forms, List.filter_append, List.map_append, hsort, hsort]

end Preamble

theorem nodup_declarations (f : Fragment) (statements : List Statement) :
    ((declarations (Preamble.ofStatements f statements).forms).map Prod.fst).Nodup := by
  have hnames : (declarations (Preamble.ofStatements f statements).forms).map Prod.fst
      = (Preamble.ofStatements f statements).booleans
        ++ (Preamble.ofStatements f statements).integers := by
    rw [declarations_forms]
    simp [Function.comp_def]
  rw [hnames, List.nodup_append]
  refine ⟨Names.nodup_of_precedes Preamble.booleans_precedes,
    Names.nodup_of_precedes Preamble.integers_precedes, ?_⟩
  rintro a ha b hb rfl
  obtain ⟨⟨s, hs, hatom⟩, -⟩ := Preamble.mem_booleans.mp ha
  exact (Preamble.mem_integers.mp hb).2.2 s hs hatom

theorem declared_not_theory {f : Fragment} {statements : List Statement} :
    ∀ d ∈ declarations (Preamble.ofStatements f statements).forms, d.1 ∉ theorySymbols := by
  have hfault : ∀ name, symbolFault? name = none → name ∉ theorySymbols := by
    intro name h
    exact (symbolFault?_eq_none_iff.mp h).2.2
  intro d hd
  rw [declarations_forms, List.mem_append, List.mem_map, List.mem_map] at hd
  rcases hd with ⟨name, hname, rfl⟩ | ⟨name, hname, rfl⟩
  · exact hfault name (Preamble.mem_booleans.mp hname).2
  · exact hfault name (Preamble.mem_integers.mp hname).2.1

theorem declarations_increase {f : Fragment} {statements : List Statement} (sort : String) :
    (((declarations (Preamble.ofStatements f statements).forms).filter (·.2 = sort)).map
      Prod.fst).Pairwise Names.Precedes := by
  rw [Preamble.declarations_of_sort]
  by_cases hbool : sort = "Bool"
  · simpa [hbool] using Preamble.booleans_precedes
  · by_cases hint : sort = "Int"
    · simpa [hint] using Preamble.integers_precedes
    · simp [hbool, hint]

/-- A statement passes the name check exactly when the header declares what it needs. -/
theorem nameError?_eq_none_iff_declared {f : Fragment} {statements : List Statement}
    {s : Statement} (hs : s ∈ statements) :
    s.nameError? (Statement.atoms statements) = none ↔
      s.atom ∈ (Preamble.ofStatements f statements).booleans ∧
        ∀ name ∈ s.leaves, name ∈ (Preamble.ofStatements f statements).integers := by
  rw [Statement.nameError?_eq_none_iff]
  constructor
  · rintro ⟨hatom, hleaves⟩
    refine ⟨Preamble.mem_booleans.mpr ⟨⟨s, hs, rfl⟩, hatom⟩, fun name hname => ?_⟩
    obtain ⟨hfault, hclash⟩ := hleaves name hname
    refine Preamble.mem_integers.mpr ⟨⟨s, hs, hname⟩, hfault, fun t ht hc => hclash ?_⟩
    exact Preamble.mem_atoms.mpr ⟨t, ht, hc⟩
  · rintro ⟨hatom, hleaves⟩
    refine ⟨(Preamble.mem_booleans.mp hatom).2, fun name hname => ?_⟩
    obtain ⟨-, hfault, hclash⟩ := Preamble.mem_integers.mp (hleaves name hname)
    refine ⟨hfault, fun hmem => ?_⟩
    obtain ⟨t, ht, hc⟩ := Preamble.mem_atoms.mp hmem
    exact hclash t ht hc

/-! ### The constants that a form uses -/

namespace Smt

namespace Form

mutual

/-- The names of a form that stand at the head of no list, from left to right. -/
def constants : Form → List String
  | symbol name => [name]
  | numeral _ => []
  | list [] => []
  | list (_ :: arguments) => constantsAll arguments

/-- The constants of several forms, one form after the other. -/
def constantsAll : List Form → List String
  | [] => []
  | f :: rest => f.constants ++ constantsAll rest

end

theorem constantsAll_eq_flatMap (fs : List Form) : constantsAll fs = fs.flatMap constants := by
  induction fs with
  | nil => rfl
  | cons f rest ih => simp [constantsAll, ih]

end Form

/-- The constants of a tree's form are the names that stand as arguments in the tree. -/
theorem SExpr.constants_toForm (e : SExpr) : e.toForm.constants = e.symbols := by
  induction e using SExpr.induct with
  | hsymbol name => rfl
  | hnumeral value => rfl
  | happ operator arguments ih =>
      rw [toForm, Form.constants, Form.constantsAll_eq_flatMap, toForms_eq_map, List.flatMap_map,
        symbols, symbolsAll_eq_flatMap]
      exact List.flatMap_congr ih

end Smt

/-- The constants of an accepted formula are the variables of its statement. -/
theorem Fragment.mem_constants_formula_iff {s : Statement} {c : SExpr}
    (h : difference.lower s = .ok c) {name : String} :
    name ∈ s.formula.constants ↔ name ∈ s.leaves := by
  rw [← toForm_eq_formula h, SExpr.constants_toForm, mem_symbols_iff_mem_leaves h]

/--
**The header and the name check agree.**  The text of a header is read as commands, and a
statement of the batch passes the check exactly when these declare its atom as a Boolean
and each of its variables as an integer.  No name is declared twice, none is the theory's,
and within a sort they increase by bytes; so an assertion finds its atom and its variables
declared once, with the right sort.  That is so of the tree that is written, and of the form
that its line is read as when the operations are simple symbols.
-/
theorem header_declares_what_the_check_passes (statements : List Statement) :
    ∃ script, Form.readAll (Preamble.ofStatements .difference statements).render = some script ∧
      (∀ s ∈ statements, s.nameError? (Statement.atoms statements) = none ↔
        (s.atom, "Bool") ∈ declarations script ∧
          ∀ name ∈ s.leaves, (name, "Int") ∈ declarations script) ∧
      ((declarations script).map Prod.fst).Nodup ∧
      (∀ d ∈ declarations script, d.1 ∉ theorySymbols) ∧
      (∀ sort, (((declarations script).filter (·.2 = sort)).map Prod.fst).Pairwise
        Names.Precedes) ∧
      ∀ s ∈ statements, ∀ c,
        Fragment.difference.outcome (Statement.atoms statements) s = .ok c →
          ((s.atom, "Bool") ∈ declarations script ∧
            ((declarations script).map Prod.fst).count s.atom = 1) ∧
          (∀ name ∈ c.symbols, (name, "Int") ∈ declarations script ∧
            ((declarations script).map Prod.fst).count name = 1) ∧
          ((∀ op ∈ s.operations, isSimple op = true) →
            ∃ f, Form.readAll (Fragment.difference.line (Statement.atoms statements) s)
                = some [.list [.symbol "assert", .list [.symbol "=", .symbol s.atom, f]]] ∧
              ∀ name ∈ f.constants, (name, "Int") ∈ declarations script ∧
                ((declarations script).map Prod.fst).count name = 1) := by
  set p := Preamble.ofStatements .difference statements with hp
  have hnodup : ((declarations p.forms).map Prod.fst).Nodup := nodup_declarations _ _
  have hdeclared : ∀ s ∈ statements, s.nameError? (Statement.atoms statements) = none ↔
      (s.atom, "Bool") ∈ declarations p.forms ∧
        ∀ name ∈ s.leaves, (name, "Int") ∈ declarations p.forms := by
    intro s hs
    simp only [Preamble.mem_declarations_bool, Preamble.mem_declarations_int]
    exact nameError?_eq_none_iff_declared hs
  have honce : ∀ name sort, (name, sort) ∈ declarations p.forms →
      ((declarations p.forms).map Prod.fst).count name = 1 := by
    intro name sort hmem
    exact List.count_eq_one_of_mem hnodup (List.mem_map.mpr ⟨(name, sort), hmem, rfl⟩)
  refine ⟨p.forms, Preamble.reads_ofStatements.readAll_eq, hdeclared, hnodup,
    declared_not_theory, declarations_increase, ?_⟩
  intro s hs c hc
  obtain ⟨hnames, hlower⟩ := Fragment.outcome_eq_ok_iff.mp hc
  obtain ⟨hatom, hleaves⟩ := (hdeclared s hs).mp hnames
  have hvariable : ∀ name ∈ s.leaves, (name, "Int") ∈ declarations p.forms ∧
      ((declarations p.forms).map Prod.fst).count name = 1 := by
    intro name hname
    exact ⟨hleaves name hname, honce _ _ (hleaves name hname)⟩
  refine ⟨⟨hatom, honce _ _ hatom⟩, fun name hname => ?_, fun hops => ?_⟩
  · exact hvariable name ((Fragment.mem_symbols_iff_mem_leaves hlower).mp hname)
  · have haccepts : Fragment.difference.accepts (Statement.atoms statements) s = true :=
      (Fragment.accepts_iff _ _).mpr ⟨c, hc⟩
    refine ⟨s.formula, (Fragment.reads_line haccepts hops).readAll_eq, fun name hname => ?_⟩
    exact hvariable name ((Fragment.mem_constants_formula_iff hlower).mp hname)

end TheoryScript
