/-
Applications as text.

An operator stands alone without arguments and in brackets with them.  The writer asks the
joined text of the arguments, and not the arguments, whether there are any.  The two agree for
two arguments and more, because of the blank between them, and for one argument that has a
text.  A sole argument without a text is lost, and the operator stands alone before it.

A term without a text is an operation without a name and without operands, or an operation
without a name on another such term (`Silent`).  So a node loses its brackets exactly where it
is applied to such a term alone (`Hollow`).  Every such node costs the same, whatever is lost
below it (`length_spelledOut`), so a term is spelled out as a whole only if it has none.
-/
import Mathlib.Algebra.BigOperators.Ring.List
import Mathlib.Algebra.Ring.Nat
import TheoryScript.Proofs.Rules.Difference

namespace TheoryScript

namespace Smt

/-! ### One application -/

/-- An operator before its arguments, in brackets as soon as there is an argument. -/
def spelledOut (operator : String) : List String → String
  | [] => operator
  | first :: rest =>
      "(" ++ operator ++ String.join ((first :: rest).map (" " ++ ·)) ++ ")"

theorem join_blanks (first : String) (rest : List String) :
    String.join ((first :: rest).map (" " ++ ·)) = " " ++ " ".intercalate (first :: rest) := by
  induction rest generalizing first with
  | nil => simp
  | cons second rest ih =>
      rw [List.map_cons, String.join_cons, ih second, String.intercalate_cons_cons]
      simp [String.append_assoc]

theorem length_spelledOut_cons (operator first : String) (rest : List String) :
    (spelledOut operator (first :: rest)).length
      = operator.length + 2 + ((first :: rest).map fun text => 1 + text.length).sum := by
  have hblank : String.length ∘ (" " ++ ·) = fun text => 1 + text.length := by
    funext text
    exact String.length_append " " text
  have hopen : "(".length = 1 := rfl
  have hclose : ")".length = 1 := rfl
  rw [spelledOut, String.length_append, String.length_append, String.length_append,
    String.length_join, List.map_map, hblank, hopen, hclose]
  omega

theorem length_spelledOut_blank (operator : String) :
    (spelledOut operator [""]).length = operator.length + 3 :=
  length_spelledOut_cons operator "" []

/-- Where the arguments are longer by so much each, the whole is longer by that altogether. -/
theorem length_spelledOut_map {α : Type} (operator : String) {xs : List α} {f g : α → String}
    (k : α → Nat) (h : ∀ x ∈ xs, (g x).length = (f x).length + k x) :
    (spelledOut operator (xs.map g)).length
      = (spelledOut operator (xs.map f)).length + (xs.map k).sum := by
  cases xs with
  | nil => rfl
  | cons x rest =>
      have hlonger : ((x :: rest).map fun x => 1 + (g x).length)
          = (x :: rest).map fun x => 1 + (f x).length + k x :=
        List.map_congr_left fun x hx => by rw [h x hx, Nat.add_assoc]
      rw [List.map_cons, List.map_cons, length_spelledOut_cons, length_spelledOut_cons,
        ← List.map_cons, ← List.map_cons, List.map_map, List.map_map, Function.comp_def,
        Function.comp_def, hlonger, List.sum_map_add]
      omega

theorem spelledOut_eq_operator_iff {operator : String} {arguments : List String} :
    spelledOut operator arguments = operator ↔ arguments = [] := by
  cases arguments with
  | nil => exact ⟨fun _ => rfl, fun _ => rfl⟩
  | cons first rest =>
      refine ⟨fun h => ?_, fun h => by cases h⟩
      have hlength := length_spelledOut_cons operator first rest
      rw [h] at hlength
      omega

/-- A sole argument without a text is lost. -/
theorem application_blank (operator : String) : application operator [""] = operator := rfl

theorem application_eq_spelledOut {operator : String} {arguments : List String}
    (h : arguments ≠ [""]) : application operator arguments = spelledOut operator arguments := by
  cases arguments with
  | nil => rfl
  | cons first rest =>
      rw [application_of_ne_blank h, spelledOut, join_blanks]
      simp [String.append_assoc]

/-- **An application is spelled out unless its sole argument has no text.** -/
theorem application_eq_spelledOut_iff {operator : String} {arguments : List String} :
    application operator arguments = spelledOut operator arguments ↔ arguments ≠ [""] := by
  refine ⟨fun h hblank => ?_, application_eq_spelledOut⟩
  rw [hblank, application_blank] at h
  cases spelledOut_eq_operator_iff.mp h.symm

theorem application_eq_operator_iff {operator : String} {arguments : List String} :
    application operator arguments = operator ↔ arguments = [] ∨ arguments = [""] := by
  by_cases hblank : arguments = [""]
  · rw [hblank, application_blank]
    simp
  · rw [application_eq_spelledOut hblank, spelledOut_eq_operator_iff]
    simp [hblank]

theorem application_eq_empty_iff {operator : String} {arguments : List String} :
    application operator arguments = "" ↔
      operator = "" ∧ (arguments = [] ∨ arguments = [""]) := by
  by_cases hlost : arguments = [] ∨ arguments = [""]
  · rw [application_eq_operator_iff.mpr hlost]
    simp [hlost]
  · obtain ⟨hnil, hblank⟩ := not_or.mp hlost
    obtain ⟨first, rest, rfl⟩ := List.exists_cons_of_ne_nil hnil
    rw [application_eq_spelledOut hblank]
    refine ⟨fun h => ?_, fun h => absurd h.2 hlost⟩
    have hlength := length_spelledOut_cons operator first rest
    rw [h, String.length_empty] at hlength
    omega

end Smt

/-! ### Terms without a text -/

namespace Term

theorem render_app (operation : String) (children : List Term) :
    (app operation children).render = Smt.application operation (children.map render) := by
  rw [render, toSExpr, Smt.SExpr.render, Smt.SExpr.renderAll_eq_map, toSExprs_eq_map, List.map_map]
  rfl

/-- A term that is written as nothing. -/
inductive Silent : Term → Prop
  | bare : Silent (app "" [])
  | around {t : Term} (h : Silent t) : Silent (app "" [t])

theorem render_const_ne_empty (value : Constant) : (const value).render ≠ "" := by
  cases value with
  | int v => exact (proper_ofInt v.toInt).render_ne_empty
  | name text => exact Smt.symbol_ne_empty text

theorem render_eq_empty_iff {t : Term} : t.render = "" ↔ t.Silent := by
  induction t using Term.induct with
  | hvar name =>
      refine ⟨fun h => absurd h (Smt.symbol_ne_empty name), fun h => ?_⟩
      cases h
  | hconst value =>
      refine ⟨fun h => absurd h (render_const_ne_empty value), fun h => ?_⟩
      cases h
  | happ operation children ih =>
      rw [render_app, Smt.application_eq_empty_iff, List.map_eq_nil_iff, List.map_eq_singleton_iff]
      constructor
      · intro ⟨hoperation, hchildren⟩
        subst hoperation
        rcases hchildren with rfl | ⟨t, rfl, ht⟩
        · exact .bare
        · exact .around ((ih t (by simp)).mp ht)
      · intro h
        cases h with
        | bare => exact ⟨rfl, Or.inl rfl⟩
        | @around t ht => exact ⟨rfl, Or.inr ⟨t, rfl, (ih t (by simp)).mpr ht⟩⟩

/-- An operation on one term that is written as nothing. -/
def Hollow (t : Term) : Prop :=
  ∃ operation operand, t = app operation [operand] ∧ operand.Silent

theorem hollow_app_iff {operation : String} {children : List Term} :
    (app operation children).Hollow ↔ children.map render = [""] := by
  rw [List.map_eq_singleton_iff]
  constructor
  · intro ⟨_, operand, heq, hsilent⟩
    obtain ⟨-, hchildren⟩ := Term.app.inj heq
    exact ⟨operand, hchildren, render_eq_empty_iff.mpr hsilent⟩
  · intro ⟨operand, hchildren, hempty⟩
    exact ⟨operation, operand, by rw [hchildren], render_eq_empty_iff.mp hempty⟩

instance : DecidablePred Hollow
  | var _ => isFalse fun ⟨_, _, heq, _⟩ => by cases heq
  | app _ _ => decidable_of_iff _ hollow_app_iff.symm
  | const _ => isFalse fun ⟨_, _, heq, _⟩ => by cases heq

/-! ### Whole terms -/

mutual

/-- The text of a term with every application spelled out, at every depth. -/
def spelledOut : Term → String
  | var name => (var name).render
  | app operation children => Smt.spelledOut operation (spelledOutAll children)
  | const value => (const value).render

/-- The texts of several terms, in order. -/
def spelledOutAll : List Term → List String
  | [] => []
  | t :: rest => t.spelledOut :: spelledOutAll rest

end

theorem spelledOutAll_eq_map (ts : List Term) : spelledOutAll ts = ts.map spelledOut := by
  induction ts with
  | nil => rfl
  | cons t rest ih => rw [spelledOutAll, ih, List.map_cons]

/-- The number of nodes that are applied to nothing but a term that is written as nothing. -/
def hollowNodes (t : Term) : Nat :=
  t.nodes.countP fun n => decide n.Hollow

theorem hollowNodes_eq_zero_iff {t : Term} : t.hollowNodes = 0 ↔ ∀ n ∈ t.nodes, ¬n.Hollow := by
  rw [hollowNodes, List.countP_eq_zero]
  simp only [decide_eq_true_eq]

theorem hollowNodes_app (operation : String) (children : List Term) :
    (app operation children).hollowNodes
      = (children.map hollowNodes).sum + if (app operation children).Hollow then 1 else 0 := by
  rw [hollowNodes, nodes, List.countP_cons, nodesAll_eq_flatMap, List.countP_flatMap]
  simp only [decide_eq_true_eq]
  rfl

/--
**Every hollow node costs three characters**, which are two brackets and a blank.  Nothing else
is lost and nothing is made up for, so the losses at different depths add up.
-/
theorem length_spelledOut (t : Term) :
    t.spelledOut.length = t.render.length + 3 * t.hollowNodes := by
  induction t using Term.induct with
  | hvar name => rfl
  | hconst value => rfl
  | happ operation children ih =>
      have hbelow := Smt.length_spelledOut_map operation (fun t => 3 * hollowNodes t) ih
      rw [List.sum_map_mul_left] at hbelow
      rw [spelledOut, spelledOutAll_eq_map, hbelow, render_app, hollowNodes_app]
      by_cases hhollow : (app operation children).Hollow
      · rw [if_pos hhollow, hollow_app_iff.mp hhollow, Smt.length_spelledOut_blank,
          Smt.application_blank]
        omega
      · rw [if_neg hhollow, Smt.application_eq_spelledOut (mt hollow_app_iff.mpr hhollow)]
        omega

theorem render_eq_spelledOut {t : Term} (h : ∀ n ∈ t.nodes, ¬n.Hollow) :
    t.render = t.spelledOut := by
  induction t using Term.induct with
  | hvar name => rfl
  | hconst value => rfl
  | happ operation children ih =>
      have hnode : ¬(app operation children).Hollow := h _ (mem_nodes_app.mpr (Or.inl rfl))
      have hchildren : children.map render = children.map spelledOut := by
        refine List.map_congr_left fun t ht => ih t ht fun n hn => ?_
        exact h n (mem_nodes_app.mpr (Or.inr ⟨t, ht, hn⟩))
      rw [render_app, Smt.application_eq_spelledOut (mt hollow_app_iff.mpr hnode), hchildren,
        spelledOut, spelledOutAll_eq_map]

/-- **A term is spelled out as a whole exactly when none of its nodes is hollow.** -/
theorem render_eq_spelledOut_iff {t : Term} :
    t.render = t.spelledOut ↔ ∀ n ∈ t.nodes, ¬n.Hollow := by
  refine ⟨fun h => ?_, render_eq_spelledOut⟩
  have hlength := t.length_spelledOut
  rw [← h] at hlength
  exact hollowNodes_eq_zero_iff.mp (by omega)

theorem Integral.of_mem_nodes {t : Term} (h : t.Integral) : ∀ n ∈ t.nodes, n.Integral := by
  induction h with
  | var name =>
      intro n hn
      rw [List.mem_singleton.mp hn]
      exact .var name
  | int value =>
      intro n hn
      rw [List.mem_singleton.mp hn]
      exact .int value
  | app operation hne hoperands ih =>
      intro n hn
      rcases mem_nodes_app.mp hn with rfl | ⟨t, ht, hnt⟩
      · exact .app operation hne hoperands
      · exact ih t ht n hnt

/-- An integer term has a text at every node, so no operation in it stands before nothing. -/
theorem Integral.not_hollow {t : Term} (h : t.Integral) : ¬t.Hollow := by
  intro ⟨operation, operand, heq, hsilent⟩
  rw [heq] at h
  cases h with
  | app _ _ hoperands =>
      exact (hoperands operand (by simp)).render_ne_empty (render_eq_empty_iff.mpr hsilent)

end Term

/--
**Applications are spelled out unless they are hollow.**  An operator and its arguments are
written in brackets, each argument behind a blank, unless the sole argument has no text; the
operator stands alone then, as it does without arguments.  So an operation is written like its
bare name if it has no operands or is hollow, and otherwise before the texts of all its
operands.  A term is spelled out at every depth exactly when no node of it is hollow, as in
every integer term.
-/
theorem applications_are_spelled_out_unless_hollow (operator : String) (arguments : List String)
    (children : List Term) (t : Term) :
    ((Smt.application operator arguments = Smt.spelledOut operator arguments
        ↔ arguments ≠ [""]) ∧
      (Smt.application operator arguments = operator ↔ arguments = [] ∨ arguments = [""])) ∧
    (((Term.app operator children).render = Smt.spelledOut operator (children.map Term.render)
        ↔ ¬(Term.app operator children).Hollow) ∧
      ((Term.app operator children).render = operator
        ↔ children = [] ∨ (Term.app operator children).Hollow)) ∧
    (t.render = t.spelledOut ↔ ∀ n ∈ t.nodes, ¬n.Hollow) ∧
    (t.Integral → t.render = t.spelledOut) := by
  refine ⟨⟨Smt.application_eq_spelledOut_iff, Smt.application_eq_operator_iff⟩, ?_,
    Term.render_eq_spelledOut_iff, fun h => ?_⟩
  · rw [Term.hollow_app_iff, Term.render_app]
    refine ⟨Smt.application_eq_spelledOut_iff, ?_⟩
    rw [Smt.application_eq_operator_iff, List.map_eq_nil_iff]
  · exact Term.render_eq_spelledOut fun n hn => (h.of_mem_nodes n hn).not_hollow

theorem nested_difference_is_spelled_out :
    (Term.app "-" [.var "x", .app "-" [.var "y", .const (.int 1)]]).Integral ∧
    (Term.app "-" [.var "x", .app "-" [.var "y", .const (.int 1)]]).render
      = (Term.app "-" [.var "x", .app "-" [.var "y", .const (.int 1)]]).spelledOut := by
  have hintegral : (Term.app "-" [.var "x", .app "-" [.var "y", .const (.int 1)]]).Integral :=
    Difference.operandFault?_eq_none_iff.mp (by decide)
  obtain ⟨-, -, -, hspelled⟩ := applications_are_spelled_out_unless_hollow "-" ["x", "y"]
    [.var "x", .var "y"] (.app "-" [.var "x", .app "-" [.var "y", .const (.int 1)]])
  exact ⟨hintegral, hspelled hintegral⟩

/-- The brackets are lost with a sole argument that has no text, be it given or a term's. -/
theorem sole_argument_without_text_is_lost :
    (Smt.application "f" [""] = "f" ∧ [""] ≠ ([] : List String) ∧
      Smt.application "f" [""] ≠ Smt.spelledOut "f" [""] ∧ Smt.spelledOut "f" [""] = "(f )") ∧
    ((Term.app "f" [.app "" []]).render = "f" ∧ [Term.app "" []] ≠ [] ∧
      (Term.app "f" [.app "" []]).render ≠ Smt.spelledOut "f" ([.app "" []].map Term.render)) := by
  decide +kernel

end TheoryScript
