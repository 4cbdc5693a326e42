/-
The text of a header.

A header names the logic and declares the names that the statements need.  It applies the
rule of the name check to the sets of all atoms and of all variables: a name must be
declarable, and a variable must not be an atom of the batch.  `mem_booleans` and
`mem_integers` say what the sets come to, and `reads_ofStatements` that the text is read
command by command, whatever follows it.
-/
import TheoryScript.Preamble
import TheoryScript.Proofs.ByteOrder
import TheoryScript.Proofs.Formula

namespace TheoryScript

open Smt

/-! ### Commands as forms -/

/-- The command that selects a logic. -/
def setLogicForm (name : String) : Form :=
  .list [.symbol "set-logic", .symbol name]

/-- The command that declares a constant of a sort. -/
def declarationForm (name sort : String) : Form :=
  .list [.symbol "declare-fun", .symbol name, .list [], .symbol sort]

theorem reads_setLogic {name : String} (hname : isSimple name = true) :
    Form.Reads (setLogic name ++ "\n") [setLogicForm name] := by
  have hne : name ≠ "" := by
    rintro rfl
    exact absurd hname (by decide)
  have hcommand : isSimple "set-logic" = true := by decide
  intro rest
  have htext : (setLogic name ++ "\n").toList ++ rest
      = '(' :: ("set-logic".toList ++ ' ' :: (name.toList ++ ')' :: '\n' :: rest)) := by
    rw [setLogic, application_eq hne, String.intercalate_singleton]
    simp
  rw [htext, Token.lexFrom_opening, Token.lexFrom_simple hcommand (SExpr.delimited_blank _),
    Token.lexFrom_blank, Token.lexFrom_simple hname (SExpr.delimited_closing _),
    Token.lexFrom_closing, Token.lexFrom_newline]
  simp only [Option.map_map]
  rfl

theorem reads_declareConst {name sort : String} (hname : isQuotable name = true)
    (hsort : isSimple sort = true) :
    Form.Reads (declareConst name sort ++ "\n") [declarationForm name sort] := by
  have hcommand : isSimple "declare-fun" = true := by decide
  intro rest
  have htext : (declareConst name sort ++ "\n").toList ++ rest
      = '(' :: ("declare-fun".toList ++ ' ' :: ((symbol name).toList ++
          ' ' :: '(' :: ')' :: ' ' :: (sort.toList ++ ')' :: '\n' :: rest))) := by
    show ("(declare-fun " ++ symbol name ++ " () " ++ sort ++ ")" ++ "\n").toList ++ rest = _
    simp
  rw [htext, Token.lexFrom_opening, Token.lexFrom_simple hcommand (SExpr.delimited_blank _),
    Token.lexFrom_blank, Token.lexFrom_symbol hname (SExpr.delimited_blank _),
    Token.lexFrom_blank, Token.lexFrom_opening, Token.lexFrom_closing, Token.lexFrom_blank,
    Token.lexFrom_simple hsort (SExpr.delimited_closing _), Token.lexFrom_closing,
    Token.lexFrom_newline]
  simp only [Option.map_map]
  rfl

namespace Preamble

/-- The forms of a header, command by command. -/
def forms (p : Preamble) : List Form :=
  setLogicForm p.logic ::
    (p.booleans.map (declarationForm · "Bool") ++ p.integers.map (declarationForm · "Int"))

/-- A header of names that can stand between bars is read command by command. -/
theorem reads_render {p : Preamble} (hlogic : isSimple p.logic = true)
    (hbooleans : ∀ name ∈ p.booleans, isQuotable name = true)
    (hintegers : ∀ name ∈ p.integers, isQuotable name = true) : Form.Reads p.render p.forms := by
  have hdeclared : ∀ (sort : String) (names : List String), isSimple sort = true →
      (∀ name ∈ names, isQuotable name = true) →
      Form.Reads (String.join (names.map fun name => declareConst name sort ++ "\n"))
        (names.map (declarationForm · sort)) := by
    intro sort names hsort hnames
    have := Form.Reads.join (fun name => declareConst name sort ++ "\n")
      (fun name => [declarationForm name sort])
      fun name hname => reads_declareConst (hnames name hname) hsort
    rwa [← List.map_eq_flatMap] at this
  have htext : p.render = setLogic p.logic ++ "\n" ++
      (String.join (p.booleans.map fun name => declareConst name "Bool" ++ "\n") ++
        String.join (p.integers.map fun name => declareConst name "Int" ++ "\n")) := by
    simp [render, commands, String.join_append, Function.comp_def]
  rw [htext]
  exact (reads_setLogic hlogic).append
    ((hdeclared "Bool" _ (by decide) hbooleans).append (hdeclared "Int" _ (by decide) hintegers))

/-! ### The declared names -/

variable {f : Fragment} {statements : List Statement}

theorem mem_atoms {name : String} :
    name ∈ Statement.atoms statements ↔ ∃ s ∈ statements, s.atom = name := by
  rw [Statement.atoms, Names.mem_sorted, List.mem_map]

theorem mem_booleans {name : String} :
    name ∈ (ofStatements f statements).booleans ↔
      (∃ s ∈ statements, s.atom = name) ∧ symbolFault? name = none := by
  simp only [ofStatements, List.mem_filter, mem_atoms, Option.isNone_iff_eq_none]

theorem mem_integers {name : String} :
    name ∈ (ofStatements f statements).integers ↔
      (∃ s ∈ statements, name ∈ s.leaves) ∧ symbolFault? name = none ∧
        ∀ s ∈ statements, s.atom ≠ name := by
  have hclash : name ∉ Statement.atoms statements ↔ ∀ s ∈ statements, s.atom ≠ name := by
    rw [mem_atoms]
    simp
  simp only [ofStatements, List.mem_filter, Names.mem_sorted, List.mem_flatMap,
    Statement.mem_vars, Option.isNone_iff_eq_none, variableFault?_eq_none_iff, hclash]

theorem booleans_precedes : (ofStatements f statements).booleans.Pairwise Names.Precedes :=
  (Names.sorted_precedes _).filter _

theorem integers_precedes : (ofStatements f statements).integers.Pairwise Names.Precedes :=
  (Names.sorted_precedes _).filter _

theorem reads_ofStatements :
    Form.Reads (ofStatements .difference statements).render
      (ofStatements .difference statements).forms := by
  refine reads_render (show isSimple Fragment.differenceName = true by decide) ?_ ?_
  · intro name hname
    exact (symbolFault?_eq_none_iff.mp (mem_booleans.mp hname).2).2.1
  · intro name hname
    exact (symbolFault?_eq_none_iff.mp (mem_integers.mp hname).2.1).2.1

end Preamble

end TheoryScript
