/-
Validation does not look at names.

The rules of a fragment ask for the shape of a statement, for its operations, for its numbers
and for how many variables occur in it.  So new names for its variables and another atom
change nothing about which rule is broken first, also when two variables get one name: it is
occurrences that are counted.  Lowering goes along with the new names, and every check is
followed through here once.  What is left for names to break is the name check of the batch.

A `Renaming` gives new names to everything that a term names, by kind.  Validation is blind
to those of variables only; the name check, in turn, to all the others.
-/
import TheoryScript.Proofs.Formula

namespace TheoryScript

open Smt

/-! ### New names -/

/-- New names for what the names in a term stand for. -/
structure Renaming where
  /-- The new name of a variable. -/
  onVar : String → String := id
  /-- The new name of an operation. -/
  onOperation : String → String := id
  /-- The new name of a symbolic constant. -/
  onConstant : String → String := id

/-- New names for variables alone. -/
def Renaming.ofVars (ρ : String → String) : Renaming where
  onVar := ρ

namespace Term

mutual

/-- The term under its new names.  Numbers have no name and stay. -/
def rename (r : Renaming) : Term → Term
  | var name => var (r.onVar name)
  | app operation children => app (r.onOperation operation) (renameAll r children)
  | const (.int v) => const (.int v)
  | const (.name text) => const (.name (r.onConstant text))

/-- Several terms under their new names. -/
def renameAll (r : Renaming) : List Term → List Term
  | [] => []
  | t :: rest => t.rename r :: renameAll r rest

end

theorem renameAll_eq_map (r : Renaming) (ts : List Term) : renameAll r ts = ts.map (rename r) := by
  induction ts with
  | nil => rfl
  | cons t rest ih => rw [renameAll, ih, List.map_cons]

/-- The leaves stay where they are and get the new names of variables. -/
theorem leaves_rename (r : Renaming) (t : Term) : (t.rename r).leaves = t.leaves.map r.onVar := by
  induction t using Term.induct with
  | hvar name => rfl
  | hconst value =>
      cases value with
      | int v => rfl
      | name text => rfl
  | happ operation children ih =>
      rw [rename, leaves, leaves, leavesAll_eq_flatMap, leavesAll_eq_flatMap, renameAll_eq_map,
        List.flatMap_map, List.map_flatMap]
      exact List.flatMap_congr ih

end Term

/-- The terms of an element under their new names. -/
def Element.rename (r : Renaming) (e : Element) : Element where
  terms := e.terms.map (Term.rename r)

/-- A statement with new names in its terms.  Its atom, category and relation stay. -/
def Statement.rename (r : Renaming) (s : Statement) : Statement :=
  { s with
    elements := s.elements.map (Element.rename r)
    right := s.right.rename r }

theorem Statement.leaves_rename (r : Renaming) (s : Statement) :
    (s.rename r).leaves = s.leaves.map r.onVar := by
  have hterms : (s.rename r).terms = s.terms.map (Term.rename r) := by
    simp [Statement.rename, Statement.terms, Element.rename, List.flatMap_map, List.map_flatMap]
  rw [Statement.leaves, hterms, Statement.leaves, List.flatMap_map, List.map_flatMap]
  exact List.flatMap_congr fun t _ => Term.leaves_rename r t

namespace Smt.SExpr

mutual

/-- The tree with new names for its arguments.  Operators stay. -/
def rename (ρ : String → String) : SExpr → SExpr
  | symbol name => symbol (ρ name)
  | numeral value => numeral value
  | app operator arguments => app operator (renameAll ρ arguments)

/-- Several trees with new names for their arguments. -/
def renameAll (ρ : String → String) : List SExpr → List SExpr
  | [] => []
  | e :: rest => e.rename ρ :: renameAll ρ rest

end

theorem renameAll_eq_map (ρ : String → String) (es : List SExpr) :
    renameAll ρ es = es.map (rename ρ) := by
  induction es with
  | nil => rfl
  | cons e rest ih => rw [renameAll, ih, List.map_cons]

theorem rename_ofInt (ρ : String → String) (n : Int) : (ofInt n).rename ρ = ofInt n := by
  unfold ofInt
  split
  · rfl
  · rfl

end Smt.SExpr

/-! ### The checks under new names of variables -/

section

variable (ρ : String → String)

/-- The count is one of occurrences, so one name for two variables does not lower it. -/
theorem Term.variableCount_rename (r : Renaming) (t : Term) :
    (t.rename r).variableCount = t.variableCount := by
  rw [variableCount_eq_length_leaves, variableCount_eq_length_leaves, leaves_rename,
    List.length_map]

theorem Element.soleTerm_rename (r : Renaming) (e : Element) :
    (e.rename r).soleTerm = e.soleTerm.map (Term.rename r) := by
  obtain ⟨terms⟩ := e
  match terms with
  | [] => rfl
  | [t] => rfl
  | t :: u :: rest => rfl

namespace Difference

theorem soleHead_rename (r : Renaming) (s : Statement) :
    soleHead (s.rename r) = (soleHead s).map (Term.rename r) := by
  unfold soleHead Statement.rename
  match s.elements with
  | [] => rfl
  | [e] => exact Element.soleTerm_rename r e
  | e :: f :: rest => rfl

theorem operandsFault?_rename {ts : List Term}
    (h : ∀ t ∈ ts, operandFault? (t.rename (.ofVars ρ)) = operandFault? t) :
    operandsFault? (Term.renameAll (.ofVars ρ) ts) = operandsFault? ts := by
  induction ts with
  | nil => rfl
  | cons t rest ih =>
      obtain ⟨hfirst, hrest⟩ := List.forall_mem_cons.mp h
      rw [Term.renameAll, operandsFault?, operandsFault?, hfirst, ih hrest]

theorem operandFault?_rename (t : Term) :
    operandFault? (t.rename (.ofVars ρ)) = operandFault? t := by
  induction t using Term.induct with
  | hvar name => rfl
  | hconst value =>
      cases value with
      | int v => rfl
      | name text => rfl
  | happ operation children ih =>
      cases children with
      | nil => rfl
      | cons t rest =>
          show operandsFault? (Term.renameAll (.ofVars ρ) (t :: rest))
            = operandsFault? (t :: rest)
          exact operandsFault?_rename ρ ih

theorem boundFault?_rename (t : Term) :
    boundFault? (t.rename (.ofVars ρ)) = boundFault? t := by
  cases t with
  | var name => rfl
  | app operation children => rfl
  | const value =>
      cases value with
      | int v => rfl
      | name text => rfl

theorem headError?_rename (s : Statement) (head : Term) :
    headError? (s.rename (.ofVars ρ)) (head.rename (.ofVars ρ)) = headError? s head := by
  cases head with
  | var name => rfl
  | const value =>
      cases value with
      | int v => rfl
      | name text => rfl
  | app operation children =>
      have hcount := Term.variableCount_rename (.ofVars ρ) (.app operation children)
      rw [Term.rename] at hcount ⊢
      rw [headError?, headError?, hcount]
      rfl

/-- A head breaks the same rule first under its new names. -/
theorem error?_rename (s : Statement) (head : Term) :
    error? (s.rename (.ofVars ρ)) (head.rename (.ofVars ρ)) = error? s head := by
  have hbound : boundFault? (s.rename (.ofVars ρ)).right = boundFault? s.right :=
    boundFault?_rename ρ s.right
  rw [error?, error?, operandFault?_rename, hbound, headError?_rename]
  rfl

end Difference

/-- A term without fault has no symbolic constants, so its symbols are its variables. -/
theorem Term.toSExpr_rename {t : Term} (h : Difference.operandFault? t = none) :
    (t.rename (.ofVars ρ)).toSExpr = t.toSExpr.rename ρ := by
  induction t using Term.induct with
  | hvar name => rfl
  | hconst value =>
      cases value with
      | int v => exact (SExpr.rename_ofInt ρ v.toInt).symm
      | name text => simp [Difference.operandFault?] at h
  | happ operation children ih =>
      obtain ⟨-, hchildren⟩ := Difference.operandFault?_app.mp h
      have hall : (children.map (rename (.ofVars ρ))).map toSExpr
          = (children.map toSExpr).map (SExpr.rename ρ) := by
        rw [List.map_map, List.map_map]
        exact List.map_congr_left fun c hc => ih c hc (hchildren c hc)
      rw [rename, toSExpr, toSExpr, SExpr.rename, toSExprs_eq_map, toSExprs_eq_map,
        renameAll_eq_map, SExpr.renameAll_eq_map, hall]
      rfl

/-- **A difference is lowered, or refused, as it is under its old names.** -/
theorem Difference.lower_rename (s : Statement) :
    lower (s.rename (.ofVars ρ)) = (lower s).map (SExpr.rename ρ) := by
  rw [lower, lower, soleHead_rename]
  cases soleHead s with
  | error fault => rfl
  | ok head =>
      simp only [Except.map, error?_rename]
      cases herror : error? s head with
      | some error => rfl
      | none =>
          obtain ⟨hhead, hbound, -, -⟩ := error?_eq_none_iff.mp herror
          have hright : (s.right.rename (.ofVars ρ)).toSExpr = s.right.toSExpr.rename ρ :=
            Term.toSExpr_rename ρ (Difference.bound_facts hbound).1
          show Except.ok (constraint (head.rename (.ofVars ρ)) (s.right.rename (.ofVars ρ))) = _
          rw [constraint, Term.toSExpr_rename ρ hhead, hright]
          rfl

namespace Domain

/-- The bounds of a range are numbers, so renaming neither makes nor breaks them. -/
theorem renameAll_eq_bounds_iff (r : Renaming) {ts : List Term} {lower upper : Int64} :
    Term.renameAll r ts = [.const (.int lower), .const (.int upper)] ↔
      ts = [.const (.int lower), .const (.int upper)] := by
  have hint : ∀ (t : Term) (v : Int64), t.rename r = .const (.int v) ↔ t = .const (.int v) := by
    intro t v
    cases t with
    | var name => simp [Term.rename]
    | app operation children => simp [Term.rename]
    | const value =>
        cases value with
        | int w => simp [Term.rename]
        | name text => simp [Term.rename]
  match ts with
  | [] => simp [Term.renameAll]
  | [t] => simp [Term.renameAll]
  | [t, u] => simp [Term.renameAll, hint]
  | t :: u :: v :: rest => simp [Term.renameAll]

theorem Item.ofTerm_app_of_bounds_ne {children : List Term}
    (h : ∀ lower upper, children ≠ [.const (.int lower), .const (.int upper)]) :
    Item.ofTerm (.app rangeOperation children) = .error .rangeBounds := by
  rw [Item.ofTerm, if_pos rfl]
  exact h

theorem Item.ofTerm_rename (t : Term) : Item.ofTerm (t.rename (.ofVars ρ)) = Item.ofTerm t := by
  cases t with
  | var name => rfl
  | const value =>
      cases value with
      | int v => rfl
      | name text => rfl
  | app operation children =>
      show Item.ofTerm (.app operation (Term.renameAll (.ofVars ρ) children)) = _
      by_cases hop : operation = rangeOperation
      · subst hop
        by_cases hbounds : ∃ lower upper, children = [.const (.int lower), .const (.int upper)]
        · obtain ⟨lower, upper, rfl⟩ := hbounds
          rfl
        · have hold : ∀ lower upper, children ≠ [.const (.int lower), .const (.int upper)] :=
            fun lower upper h => hbounds ⟨lower, upper, h⟩
          have hnew : ∀ lower upper, Term.renameAll (.ofVars ρ) children
              ≠ [.const (.int lower), .const (.int upper)] :=
            fun lower upper h => hold lower upper ((renameAll_eq_bounds_iff _).mp h)
          rw [ofTerm_app_of_bounds_ne hold, ofTerm_app_of_bounds_ne hnew]
      · simp [ofTerm, hop]

theorem Item.ofElement_rename (e : Element) :
    Item.ofElement (e.rename (.ofVars ρ)) = Item.ofElement e := by
  rw [Item.ofElement, Item.ofElement, Element.soleTerm_rename]
  cases e.soleTerm with
  | error fault => rfl
  | ok t => exact Item.ofTerm_rename ρ t

theorem items_rename (es : List Element) :
    items (es.map (Element.rename (.ofVars ρ))) = items es := by
  induction es with
  | nil => rfl
  | cons e rest ih => rw [List.map_cons, items, items, Item.ofElement_rename, ih]

theorem Item.toSExpr_rename (name : String) (item : Item) :
    (item.toSExpr name).rename ρ = item.toSExpr (ρ name) := by
  cases item with
  | value v => simp [toSExpr, SExpr.rename, SExpr.renameAll, SExpr.rename_ofInt]
  | range lower upper => simp [toSExpr, SExpr.rename, SExpr.renameAll, SExpr.rename_ofInt]

theorem constraint_rename (name : String) (found : List Item) :
    (constraint name found).rename ρ = constraint (ρ name) found := by
  match found with
  | [] => rfl
  | [item] => exact Item.toSExpr_rename ρ name item
  | first :: second :: rest =>
      simp [constraint, SExpr.rename, SExpr.renameAll_eq_map, Item.toSExpr_rename]

/-- **A domain is lowered, or refused, as it is under its old names.** -/
theorem lower_rename (s : Statement) :
    lower (s.rename (.ofVars ρ)) = (lower s).map (SExpr.rename ρ) := by
  have hitems : items (s.rename (.ofVars ρ)).elements = items s.elements :=
    items_rename ρ s.elements
  have hempty : (s.rename (.ofVars ρ)).elements.isEmpty = s.elements.isEmpty :=
    List.isEmpty_map
  have hright : (s.rename (.ofVars ρ)).right = s.right.rename (.ofVars ρ) := rfl
  have hrelation : (s.rename (.ofVars ρ)).relationError? relation = s.relationError? relation :=
    rfl
  rw [lower, lower, hitems, hempty, hright, hrelation]
  by_cases hnone : s.elements.isEmpty = true
  · rw [if_pos hnone, if_pos hnone]
    rfl
  rw [if_neg hnone, if_neg hnone]
  cases s.right with
  | app operation children => rfl
  | const value =>
      cases value with
      | int v => rfl
      | name text => rfl
  | var name =>
      cases items s.elements with
      | error fault => rfl
      | ok found =>
          cases s.relationError? relation with
          | some error => rfl
          | none => exact congrArg Except.ok (constraint_rename ρ name found).symm

end Domain

namespace Fragment

/-- **Lowering goes along with new names of the variables, and with another atom.** -/
theorem lower_rename (s : Statement) (atom : String) :
    difference.lower { s.rename (.ofVars ρ) with atom }
      = (difference.lower s).map (SExpr.rename ρ) := by
  show (if s.category = Difference.category then Difference.lower (s.rename (.ofVars ρ))
    else if s.category = Domain.category then Domain.lower (s.rename (.ofVars ρ))
    else _) = (lowerDifference s).map (SExpr.rename ρ)
  rw [lowerDifference, Difference.lower_rename, Domain.lower_rename]
  split
  · rfl
  split
  · rfl
  · rfl

end Fragment

end

/--
**Whether a statement is encoded, and why it is not, has nothing to do with its names.**
Under new names of its variables, which may coincide, and under another atom a statement is
encoded when it was, with the new names in its constraint, and refused with the same error
when it was not.  So a name can only keep a statement out of a batch through the name check.
-/
theorem encoding_ignores_names (s : Statement) (ρ : String → String) (atom : String) :
    let renamed := { s.rename (.ofVars ρ) with atom }
    ((∃ text, Fragment.difference.encode renamed = .ok text) ↔
      ∃ text, Fragment.difference.encode s = .ok text) ∧
    (∀ error, Fragment.difference.encode renamed = .error error ↔
      Fragment.difference.encode s = .error error) ∧
    Fragment.difference.lower renamed = (Fragment.difference.lower s).map (SExpr.rename ρ) ∧
    ∀ atoms error, Fragment.difference.outcome atoms renamed = .error error ↔
      renamed.nameError? atoms = some error ∨
        renamed.nameError? atoms = none ∧ Fragment.difference.encode s = .error error := by
  intro renamed
  have hlower : Fragment.difference.lower renamed
      = (Fragment.difference.lower s).map (SExpr.rename ρ) := Fragment.lower_rename ρ s atom
  have herror : ∀ error, Fragment.difference.encode renamed = .error error ↔
      Fragment.difference.encode s = .error error := by
    intro error
    rw [Fragment.encode_eq_error_iff_lower, hlower, exceptMap_eq_error_iff,
      Fragment.encode_eq_error_iff_lower]
  refine ⟨?_, herror, hlower, fun atoms error => ?_⟩
  · simp only [Fragment.encode_eq_ok_iff_lower, hlower, exceptMap_eq_ok_iff]
    constructor
    · rintro ⟨_, _, ⟨c, hc, -⟩, -⟩
      exact ⟨_, c, hc, rfl⟩
    · rintro ⟨_, c, hc, -⟩
      exact ⟨_, _, ⟨c, hc, rfl⟩, rfl⟩
  · rw [Fragment.outcome_eq_error_iff, ← Fragment.encode_eq_error_iff_lower, herror]

-- one name for all three variables leaves three occurrences
example :
    let s : Statement :=
      ⟨"a", "diff", [⟨[.app "-" [.var "x", .app "-" [.var "y", .var "z"]]]⟩], "<=", .var "w"⟩
    Fragment.difference.encode (s.rename (.ofVars fun _ => "x"))
      = .error (.tooManyVariables "diff" 3 2) := by
  decide +kernel

end TheoryScript
