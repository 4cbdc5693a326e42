/-
The formula that a statement stands for.

`Statement.formula` is read off the statement itself: a difference is its two sides under
the relation, a domain is the list of its values and ranges.  An accepted statement is
lowered to exactly that tree (`toForm_eq_formula`), and the tree is proper.  Its names are
the variables of the statement, and its operators the operations of the statement beside
the few that lowering writes; so they are simple exactly when the operations are.
-/
import TheoryScript.Proofs.Accepted
import TheoryScript.Proofs.Smt.ReadBack

namespace TheoryScript

open Smt

/-! ### Operations -/

namespace Term

mutual

/-- The operations of a term at every depth, each as often as it occurs. -/
def operations : Term → List String
  | var _ => []
  | const _ => []
  | app operation children => operation :: operationsAll children

/-- The operations of several terms, one term after the other. -/
def operationsAll : List Term → List String
  | [] => []
  | t :: rest => t.operations ++ operationsAll rest

end

theorem operationsAll_eq_flatMap (ts : List Term) :
    operationsAll ts = ts.flatMap operations := by
  induction ts with
  | nil => rfl
  | cons t rest ih => simp [operationsAll, ih]

theorem mem_operations_app {operation : String} {children : List Term} {c : Term}
    (hc : c ∈ children) {op : String} (hop : op ∈ c.operations) :
    op ∈ (app operation children).operations := by
  rw [operations, operationsAll_eq_flatMap]
  exact List.mem_cons_of_mem _ (List.mem_flatMap.mpr ⟨c, hc, hop⟩)

theorem mem_leaves_app {operation : String} {children : List Term} {c : Term}
    (hc : c ∈ children) {name : String} (hname : name ∈ c.leaves) :
    name ∈ (app operation children).leaves := by
  rw [leaves, leavesAll_eq_flatMap]
  exact List.mem_flatMap.mpr ⟨c, hc, hname⟩

end Term

/-- The operations of a statement, in all of its terms and at every depth. -/
def Statement.operations (s : Statement) : List String :=
  s.terms.flatMap Term.operations

/-! ### Formulas -/

/-- An integer as it is written: a numeral, or minus before a numeral. -/
def integerForm (n : Int) : Form :=
  if n < 0 then .list [.symbol "-", .numeral n.natAbs] else .numeral n.natAbs

namespace Term

mutual

/-- A term as it is written, an operation before its operands. -/
def form : Term → Form
  | var name => .symbol name
  | const (.int v) => integerForm v.toInt
  | const (.name text) => .symbol text
  | app operation children => .list (.symbol operation :: forms children)

/-- Several terms as they are written. -/
def forms : List Term → List Form
  | [] => []
  | t :: rest => t.form :: forms rest

end

theorem forms_eq_map (ts : List Term) : forms ts = ts.map form := by
  induction ts with
  | nil => rfl
  | cons t rest ih => rw [forms, ih, List.map_cons]

/-- That a variable has the value, or lies in the range, that an element of a domain lists. -/
def membership (name : String) : Term → Form
  | const (.int v) => .list [.symbol "=", .symbol name, integerForm v.toInt]
  | app _ [const (.int lower), const (.int upper)] =>
      .list [.symbol "and",
        .list [.symbol "<=", integerForm lower.toInt, .symbol name],
        .list [.symbol "<=", .symbol name, integerForm upper.toInt]]
  | _ => .list []

end Term

/-- One of several formulas, or the only one there is. -/
def disjunction : List Form → Form
  | [only] => only
  | several => .list (.symbol "or" :: several)

namespace Statement

/-- The terms between the braces, element by element. -/
def listed (s : Statement) : List Term :=
  s.elements.flatMap Element.terms

/-- What a statement says, as a formula over its variables. -/
def formula (s : Statement) : Form :=
  if s.category = "dom" then
    match s.right with
    | .var name => disjunction (s.listed.map (Term.membership name))
    | _ => .list []
  else .list (.symbol "<=" :: (s.listed.map Term.form ++ [s.right.form]))

/-- The assertion that the atom of a statement is equal to its formula. -/
def assertionForm (s : Statement) : Form :=
  .list [.symbol "assert", .list [.symbol "=", .symbol s.atom, s.formula]]

end Statement

/-! ### Terms as trees -/

theorem toForm_ofInt (n : Int) : (SExpr.ofInt n).toForm = integerForm n := by
  unfold SExpr.ofInt integerForm
  split <;> rfl

theorem proper_ofInt (n : Int) : (SExpr.ofInt n).Proper := by
  unfold SExpr.ofInt
  split
  · exact .unary "-" (.numeral _)
  · exact .numeral _

theorem operators_ofInt {n : Int} {op : String} (h : op ∈ (SExpr.ofInt n).operators) :
    op = "-" := by
  unfold SExpr.ofInt at h
  split at h
  · simpa [SExpr.operators, SExpr.operatorsAll] using h
  · simp [SExpr.operators] at h

theorem symbols_ofInt (n : Int) : (SExpr.ofInt n).symbols = [] := by
  unfold SExpr.ofInt
  split <;> rfl

namespace Term

theorem toForm_toSExpr (t : Term) : t.toSExpr.toForm = t.form := by
  induction t using Term.induct with
  | hvar name => rfl
  | hconst value =>
      cases value with
      | int v => exact toForm_ofInt v.toInt
      | name text => rfl
  | happ operation children ih =>
      have hforms : (children.map toSExpr).map SExpr.toForm = children.map form := by
        rw [List.map_map]
        exact List.map_congr_left ih
      rw [toSExpr, SExpr.toForm, form, toSExprs_eq_map, SExpr.toForms_eq_map, forms_eq_map, hforms]

/-- A term without fault whose variables can stand between bars is a proper tree. -/
theorem proper_toSExpr {t : Term} (hfault : Difference.operandFault? t = none)
    (hleaves : ∀ name ∈ t.leaves, isQuotable name = true) : t.toSExpr.Proper := by
  induction t using Term.induct with
  | hvar name => exact .symbol (hleaves name (by simp [leaves]))
  | hconst value =>
      cases value with
      | int v => exact proper_ofInt v.toInt
      | name text => simp [Difference.operandFault?] at hfault
  | happ operation children ih =>
      obtain ⟨hne, hchildren⟩ := Difference.operandFault?_app.mp hfault
      rw [toSExpr, toSExprs_eq_map]
      refine .app operation (by simpa using hne) fun a ha => ?_
      obtain ⟨c, hc, rfl⟩ := List.mem_map.mp ha
      exact ih c hc (hchildren c hc) fun name hname => hleaves name (mem_leaves_app hc hname)

/-- The operators of a term are its operations, and the minus of negative numbers. -/
theorem operators_toSExpr {t : Term} :
    (∀ op ∈ t.operations, op ∈ t.toSExpr.operators) ∧
      ∀ op ∈ t.toSExpr.operators, op ∈ t.operations ∨ op = "-" := by
  induction t using Term.induct with
  | hvar name => simp [operations, toSExpr, SExpr.operators]
  | hconst value =>
      refine ⟨by simp [operations], fun op hop => Or.inr ?_⟩
      cases value with
      | int v => exact operators_ofInt hop
      | name text => simp [toSExpr, Constant.toSExpr, SExpr.operators] at hop
  | happ operation children ih =>
      simp only [operations, operationsAll_eq_flatMap, toSExpr, SExpr.operators,
        SExpr.operatorsAll_eq_flatMap, toSExprs_eq_map, List.flatMap_map, List.mem_cons,
        List.mem_flatMap]
      constructor
      · rintro op (rfl | ⟨c, hc, hop⟩)
        · exact Or.inl rfl
        · exact Or.inr ⟨c, hc, (ih c hc).1 op hop⟩
      · rintro op (rfl | ⟨c, hc, hop⟩)
        · exact Or.inl (Or.inl rfl)
        · rcases (ih c hc).2 op hop with h | h
          · exact Or.inl (Or.inr ⟨c, hc, h⟩)
          · exact Or.inr h

/-- The argument names of a term without fault are its variables. -/
theorem symbols_toSExpr {t : Term} (hfault : Difference.operandFault? t = none) :
    t.toSExpr.symbols = t.leaves := by
  induction t using Term.induct with
  | hvar name => rfl
  | hconst value =>
      cases value with
      | int v => exact symbols_ofInt v.toInt
      | name text => simp [Difference.operandFault?] at hfault
  | happ operation children ih =>
      obtain ⟨-, hchildren⟩ := Difference.operandFault?_app.mp hfault
      rw [toSExpr, SExpr.symbols, SExpr.symbolsAll_eq_flatMap, toSExprs_eq_map, leaves,
        leavesAll_eq_flatMap, List.flatMap_map]
      exact List.flatMap_congr fun c hc => ih c hc (hchildren c hc)

end Term

theorem Difference.bound_facts {t : Term} (h : boundFault? t = none) :
    operandFault? t = none ∧ t.operations = [] := by
  rcases boundFault?_eq_none_iff.mp h with ⟨v, rfl⟩ | ⟨name, rfl⟩
  · exact ⟨rfl, rfl⟩
  · exact ⟨rfl, rfl⟩

/-- The operators that lowering writes, whatever the statement. -/
def loweringOperators : List String := ["<=", "=", "and", "or", "-"]

/-! ### Items of a domain as trees -/

namespace Domain

theorem toForm_item {name : String} {t : Term} {item : Item} (h : Item.ofTerm t = .ok item) :
    (item.toSExpr name).toForm = t.membership name := by
  rcases Item.ofTerm_eq_ok_iff.mp h with ⟨v, rfl, rfl⟩ | ⟨lower, upper, rfl, -, rfl⟩
  · simp [Item.toSExpr, SExpr.toForm, SExpr.toForms, Term.membership, toForm_ofInt]
  · simp [Item.toSExpr, SExpr.toForm, SExpr.toForms, Term.membership, toForm_ofInt]

/-- The elements of a domain hold one term each, so its terms are its items, one for each. -/
theorem items_of_elements {es : List Element} {found : List Item}
    (h : List.Forall₂ (fun e item => Item.ofElement e = .ok item) es found) :
    List.Forall₂ (fun t item => Item.ofTerm t = .ok item) (es.flatMap Element.terms) found := by
  induction h with
  | nil => exact .nil
  | @cons e item es found he _ ih =>
      obtain ⟨t, hterms, hitem⟩ := Item.ofElement_eq_ok_iff.mp he
      rw [List.flatMap_cons, hterms]
      exact .cons hitem ih

theorem items_ne_nil {es : List Element} {found : List Item} (hne : es ≠ [])
    (h : List.Forall₂ (fun e item => Item.ofElement e = .ok item) es found) : found ≠ [] := by
  rintro rfl
  exact hne (List.forall₂_nil_right_iff.mp h)

theorem terms_ne_nil {es : List Element} {found : List Item} (hne : es ≠ [])
    (h : List.Forall₂ (fun e item => Item.ofElement e = .ok item) es found) :
    es.flatMap Element.terms ≠ [] := by
  have hitems := items_of_elements h
  intro hnil
  rw [hnil] at hitems
  exact items_ne_nil hne h (List.forall₂_nil_left_iff.mp hitems)

theorem exists_item {ts : List Term} {found : List Item}
    (h : List.Forall₂ (fun t item => Item.ofTerm t = .ok item) ts found) :
    ∀ t ∈ ts, ∃ item, Item.ofTerm t = .ok item := by
  induction h with
  | nil => simp
  | @cons u item ts found hitem _ ih =>
      intro t ht
      rcases List.mem_cons.mp ht with rfl | ht
      · exact ⟨item, hitem⟩
      · exact ih t ht

theorem toForms_items {name : String} {ts : List Term} {found : List Item}
    (h : List.Forall₂ (fun t item => Item.ofTerm t = .ok item) ts found) :
    SExpr.toForms (found.map (Item.toSExpr name)) = ts.map (Term.membership name) := by
  induction h with
  | nil => rfl
  | cons hitem _ ih => rw [List.map_cons, List.map_cons, SExpr.toForms, toForm_item hitem, ih]

theorem toForm_constraint {name : String} {found : List Item} :
    (constraint name found).toForm
      = disjunction (SExpr.toForms (found.map (Item.toSExpr name))) := by
  match found with
  | [] => rfl
  | [item] => rfl
  | first :: second :: rest => rfl

theorem proper_item {name : String} (hname : isQuotable name = true) (item : Item) :
    (item.toSExpr name).Proper := by
  have hsymbol : (SExpr.symbol name).Proper := .symbol hname
  cases item with
  | value v => exact .binary "=" hsymbol (proper_ofInt _)
  | range lower upper =>
      have hlower : (SExpr.app "<=" [.ofInt lower.toInt, .symbol name]).Proper :=
        .binary "<=" (proper_ofInt _) hsymbol
      have hupper : (SExpr.app "<=" [.symbol name, .ofInt upper.toInt]).Proper :=
        .binary "<=" hsymbol (proper_ofInt _)
      exact .binary "and" hlower hupper

theorem proper_constraint {name : String} (hname : isQuotable name = true) {found : List Item}
    (hne : found ≠ []) : (constraint name found).Proper := by
  match found with
  | [item] => exact proper_item hname item
  | first :: second :: rest =>
      refine .app "or" (by simp) fun a ha => ?_
      obtain ⟨item, -, rfl⟩ := List.mem_map.mp ha
      exact proper_item hname item

theorem operators_item (name : String) (item : Item) :
    ∀ op ∈ (item.toSExpr name).operators, op ∈ loweringOperators := by
  have hint : ∀ (n : Int), ∀ op ∈ (SExpr.ofInt n).operators, op ∈ loweringOperators := by
    intro n op hop
    rw [operators_ofInt hop]
    decide
  intro op hop
  cases item with
  | value v =>
      simp only [Item.toSExpr, SExpr.operators, SExpr.operatorsAll, List.nil_append,
        List.append_nil, List.mem_cons] at hop
      rcases hop with rfl | hop
      · decide
      · exact hint _ op hop
  | range lower upper =>
      simp only [Item.toSExpr, SExpr.operators, SExpr.operatorsAll, List.nil_append,
        List.append_nil, List.mem_cons, List.mem_append] at hop
      rcases hop with rfl | (rfl | hop) | rfl | hop
      · decide
      · decide
      · exact hint _ op hop
      · decide
      · exact hint _ op hop

/-- A domain's constraint has no operator of its own choice. -/
theorem operators_constraint (name : String) (found : List Item) :
    ∀ op ∈ (constraint name found).operators, op ∈ loweringOperators := by
  have hor : "or" ∈ loweringOperators := by decide
  intro op hop
  match found with
  | [] =>
      simp only [constraint, SExpr.operators, List.map_nil, SExpr.operatorsAll,
        List.mem_singleton] at hop
      rw [hop]
      exact hor
  | [item] => exact operators_item name item op hop
  | first :: second :: rest =>
      simp only [constraint, SExpr.operators, SExpr.operatorsAll_eq_flatMap, List.mem_cons,
        List.mem_flatMap, List.mem_map] at hop
      rcases hop with rfl | ⟨a, ⟨item, -, rfl⟩, hop⟩
      · exact hor
      · exact operators_item name item op hop

theorem mem_symbols_item {name n : String} (item : Item) :
    n ∈ (item.toSExpr name).symbols ↔ n = name := by
  cases item with
  | value v => simp [Item.toSExpr, SExpr.symbols, SExpr.symbolsAll, symbols_ofInt]
  | range lower upper => simp [Item.toSExpr, SExpr.symbols, SExpr.symbolsAll, symbols_ofInt]

theorem mem_symbols_constraint {name n : String} {found : List Item} (hne : found ≠ []) :
    n ∈ (constraint name found).symbols ↔ n = name := by
  match found with
  | [item] => exact mem_symbols_item item
  | first :: second :: rest =>
      simp only [constraint, SExpr.symbols, SExpr.symbolsAll_eq_flatMap, List.mem_flatMap,
        List.mem_map]
      constructor
      · rintro ⟨a, ⟨item, -, rfl⟩, hn⟩
        exact (mem_symbols_item item).mp hn
      · intro hn
        exact ⟨_, ⟨first, by simp, rfl⟩, (mem_symbols_item first).mpr hn⟩

/-- What a domain lists are numbers and ranges, which have no variables. -/
theorem leaves_item {t : Term} {item : Item} (h : Item.ofTerm t = .ok item) : t.leaves = [] := by
  rcases Item.ofTerm_eq_ok_iff.mp h with ⟨v, rfl, -⟩ | ⟨lower, upper, rfl, -, -⟩
  · rfl
  · rfl

theorem operations_item {t : Term} {item : Item} (h : Item.ofTerm t = .ok item) :
    ∀ op ∈ t.operations, op = rangeOperation := by
  intro op hop
  rcases Item.ofTerm_eq_ok_iff.mp h with ⟨v, rfl, -⟩ | ⟨lower, upper, rfl, -, -⟩
  · simp [Term.operations] at hop
  · simpa [Term.operations, Term.operationsAll] using hop

end Domain

/-! ### Accepted statements -/

namespace Fragment

/-- **An accepted statement is lowered to its own formula.** -/
theorem toForm_eq_formula {s : Statement} {c : SExpr} (h : difference.lower s = .ok c) :
    c.toForm = s.formula := by
  rcases lower_difference_eq_ok_iff.mp h with ⟨hcat, h⟩ | ⟨hcat, h⟩
  · obtain ⟨head, helements, -, -, -, -, rfl⟩ := Difference.lower_eq_ok_iff.mp h
    have hlisted : s.listed = [head] := by simp [Statement.listed, helements]
    rw [Statement.formula, if_neg (by rw [hcat]; decide), hlisted]
    simp [Difference.constraint, Difference.relation, SExpr.toForm, SExpr.toForms,
      Term.toForm_toSExpr]
  · obtain ⟨name, found, -, hright, hfound, -, rfl⟩ := Domain.lower_eq_ok_iff.mp h
    rw [Statement.formula, if_pos (show s.category = "dom" from hcat), hright]
    show _ = disjunction (s.listed.map (Term.membership name))
    rw [Domain.toForm_constraint, Domain.toForms_items (Domain.items_of_elements hfound),
      Statement.listed]

theorem mem_leaves_of_listed {s : Statement} {t : Term} (ht : t ∈ s.listed) {name : String}
    (hname : name ∈ t.leaves) : name ∈ s.leaves :=
  List.mem_flatMap.mpr ⟨t, List.mem_append_left _ ht, hname⟩

theorem mem_leaves_of_right {s : Statement} {name : String} (hname : name ∈ s.right.leaves) :
    name ∈ s.leaves :=
  List.mem_flatMap.mpr ⟨s.right, List.mem_append_right _ (by simp), hname⟩

/-- The names in a constraint are the variables of its statement. -/
theorem mem_symbols_iff_mem_leaves {s : Statement} {c : SExpr} (h : difference.lower s = .ok c)
    {name : String} : name ∈ c.symbols ↔ name ∈ s.leaves := by
  rcases lower_difference_eq_ok_iff.mp h with ⟨-, h⟩ | ⟨-, h⟩
  · obtain ⟨head, helements, hhead, hbound, -, -, rfl⟩ := Difference.lower_eq_ok_iff.mp h
    simp [Difference.constraint, SExpr.symbols, SExpr.symbolsAll, Statement.leaves,
      Statement.terms, helements, Term.symbols_toSExpr hhead,
      Term.symbols_toSExpr (Difference.bound_facts hbound).1]
  · obtain ⟨x, found, hne, hright, hfound, -, rfl⟩ := Domain.lower_eq_ok_iff.mp h
    have hlisted : s.listed.flatMap Term.leaves = [] := by
      refine List.flatMap_eq_nil_iff.mpr fun t ht => ?_
      obtain ⟨item, hitem⟩ := Domain.exists_item (Domain.items_of_elements hfound) t ht
      exact Domain.leaves_item hitem
    have hleaves : s.leaves = [x] := by
      rw [Statement.leaves, Statement.terms, List.flatMap_append]
      show s.listed.flatMap Term.leaves ++ [s.right].flatMap Term.leaves = _
      rw [hlisted, hright]
      rfl
    rw [Domain.mem_symbols_constraint (Domain.items_ne_nil hne hfound), hleaves,
      List.mem_singleton]

/-- A constraint is an application: of a relation, or of a connective. -/
theorem exists_app {s : Statement} {c : SExpr} (h : difference.lower s = .ok c) :
    ∃ operator arguments, c = .app operator arguments := by
  rcases lower_difference_eq_ok_iff.mp h with ⟨-, h⟩ | ⟨-, h⟩
  · obtain ⟨head, -, -, -, -, -, rfl⟩ := Difference.lower_eq_ok_iff.mp h
    exact ⟨_, _, rfl⟩
  · obtain ⟨name, found, -, -, -, -, rfl⟩ := Domain.lower_eq_ok_iff.mp h
    cases found with
    | nil => exact ⟨_, _, rfl⟩
    | cons item rest =>
        cases rest with
        | cons second rest => exact ⟨_, _, rfl⟩
        | nil =>
            cases item with
            | value v => exact ⟨_, _, rfl⟩
            | range lower upper => exact ⟨_, _, rfl⟩

/-- The constraint of a statement whose names pass the check is a proper tree. -/
theorem proper_of_outcome {atoms : List String} {s : Statement} {c : SExpr}
    (h : difference.outcome atoms s = .ok c) : c.Proper := by
  obtain ⟨hnames, hlower⟩ := outcome_eq_ok_iff.mp h
  have hquotable : ∀ name ∈ s.leaves, isQuotable name = true := by
    intro name hname
    have hfault := ((Statement.nameError?_eq_none_iff.mp hnames).2 name hname).1
    exact (symbolFault?_eq_none_iff.mp hfault).2.1
  rcases lower_difference_eq_ok_iff.mp hlower with ⟨-, hlower⟩ | ⟨-, hlower⟩
  · obtain ⟨head, helements, hhead, hbound, -, -, rfl⟩ := Difference.lower_eq_ok_iff.mp hlower
    have hlisted : head ∈ s.listed := by simp [Statement.listed, helements]
    have hheadProper : head.toSExpr.Proper := Term.proper_toSExpr hhead fun name hname =>
      hquotable name (mem_leaves_of_listed hlisted hname)
    have hboundProper : s.right.toSExpr.Proper :=
      Term.proper_toSExpr (Difference.bound_facts hbound).1 fun name hname =>
        hquotable name (mem_leaves_of_right hname)
    exact .binary _ hheadProper hboundProper
  · obtain ⟨name, found, hne, hright, hfound, -, rfl⟩ := Domain.lower_eq_ok_iff.mp hlower
    have hname : isQuotable name = true :=
      hquotable name (mem_leaves_of_right (by simp [hright, Term.leaves]))
    exact Domain.proper_constraint hname (Domain.items_ne_nil hne hfound)

/-- The operators of a constraint are the statement's operations and those of lowering. -/
theorem operators_of_lower {s : Statement} {c : SExpr} (h : difference.lower s = .ok c) :
    (∀ op ∈ s.operations, op ∈ c.operators ∨ op = Domain.rangeOperation) ∧
      ∀ op ∈ c.operators, op ∈ s.operations ∨ op ∈ loweringOperators := by
  rcases lower_difference_eq_ok_iff.mp h with ⟨-, h⟩ | ⟨-, h⟩
  · obtain ⟨head, helements, -, hbound, -, -, rfl⟩ := Difference.lower_eq_ok_iff.mp h
    have hops : s.operations = head.operations := by
      simp [Statement.operations, Statement.terms, helements,
        (Difference.bound_facts hbound).2]
    have hminus : "-" ∈ loweringOperators := by decide
    rw [hops]
    constructor
    · intro op hop
      refine Or.inl ?_
      simp [Difference.constraint, SExpr.operators, SExpr.operatorsAll,
        Term.operators_toSExpr.1 op hop]
    · intro op hop
      simp only [Difference.constraint, SExpr.operators, SExpr.operatorsAll, List.append_nil,
        List.mem_cons, List.mem_append] at hop
      rcases hop with rfl | hop | hop
      · exact Or.inr (by decide)
      · rcases Term.operators_toSExpr.2 op hop with hop | rfl
        · exact Or.inl hop
        · exact Or.inr hminus
      · rcases Term.operators_toSExpr.2 op hop with hop | rfl
        · simp [(Difference.bound_facts hbound).2] at hop
        · exact Or.inr hminus
  · obtain ⟨name, found, -, hright, hfound, -, rfl⟩ := Domain.lower_eq_ok_iff.mp h
    refine ⟨?_, fun op hop => Or.inr (Domain.operators_constraint name found op hop)⟩
    intro op hop
    obtain ⟨t, ht, hop⟩ := List.mem_flatMap.mp hop
    rcases List.mem_append.mp ht with ht | ht
    · obtain ⟨item, hitem⟩ := Domain.exists_item (Domain.items_of_elements hfound) t ht
      exact Or.inr (Domain.operations_item hitem op hop)
    · rw [List.mem_singleton.mp ht, hright] at hop
      simp [Term.operations] at hop

/-- **The operators of a constraint are simple exactly when the statement's operations are.** -/
theorem simple_operators_iff {s : Statement} {c : SExpr} (h : difference.lower s = .ok c) :
    (∀ op ∈ c.operators, isSimple op = true) ↔ ∀ op ∈ s.operations, isSimple op = true := by
  have hrange : isSimple Domain.rangeOperation = true := by decide
  have hlowering : ∀ op ∈ loweringOperators, isSimple op = true := by decide
  obtain ⟨hfrom, hto⟩ := operators_of_lower h
  constructor
  · intro hsimple op hop
    rcases hfrom op hop with hop | rfl
    · exact hsimple op hop
    · exact hrange
  · intro hsimple op hop
    rcases hto op hop with hop | hop
    · exact hsimple op hop
    · exact hlowering op hop

end Fragment

end TheoryScript
