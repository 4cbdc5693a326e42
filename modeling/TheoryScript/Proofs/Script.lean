/-
The script of a batch is read back.

The line of an accepted statement is the text of one tree, its assertion.  The atom and
the variables went through the name check, so the tree is proper; what is left to ask is
the same as for every proper tree, that its operators are simple.  Where they are, a line
is read in front of any text, and so are a header and the lines below it.

The operation at the top of a difference is always minus, but no rule looks at the
operations below it, and they are written as they are.  One that holds brackets can end
its assertion and open another.
-/
import TheoryScript.Proofs.Emission
import TheoryScript.Proofs.Header

namespace TheoryScript

open Smt

/-! ### Assertions as trees -/

/-- The tree of an assertion. -/
def Statement.assertionTree (s : Statement) (constraint : SExpr) : SExpr :=
  .app "assert" [.app "=" [.symbol s.atom, constraint]]

theorem Statement.operators_assertionTree (s : Statement) (c : SExpr) :
    (s.assertionTree c).operators = "assert" :: "=" :: c.operators := by
  simp [assertionTree, SExpr.operators, SExpr.operatorsAll]

namespace Fragment

variable {atoms : List String} {s : Statement} {c : SExpr}

theorem line_of_outcome (h : difference.outcome atoms s = .ok c) :
    difference.line atoms s = (s.assertionTree c).render ++ "\n" := by
  rw [line, h]
  rfl

theorem toForm_assertionTree (h : difference.outcome atoms s = .ok c) :
    (s.assertionTree c).toForm = s.assertionForm := by
  have hformula := toForm_eq_formula (outcome_eq_ok_iff.mp h).2
  simp [Statement.assertionTree, Statement.assertionForm, SExpr.toForm, SExpr.toForms, hformula]

/-- The name check lets no atom through that could not stand between bars. -/
theorem quotable_atom (h : difference.outcome atoms s = .ok c) : isQuotable s.atom = true := by
  have hnames := (outcome_eq_ok_iff.mp h).1
  exact (symbolFault?_eq_none_iff.mp (Statement.nameError?_eq_none_iff.mp hnames).1).2.1

theorem proper_equation (h : difference.outcome atoms s = .ok c) :
    (SExpr.app "=" [.symbol s.atom, c]).Proper :=
  .binary "=" (.symbol (quotable_atom h)) (proper_of_outcome h)

theorem proper_assertionTree (h : difference.outcome atoms s = .ok c) :
    (s.assertionTree c).Proper :=
  .unary "assert" (proper_equation h)

theorem simple_assertionTree_iff (h : difference.outcome atoms s = .ok c) :
    (∀ op ∈ (s.assertionTree c).operators, isSimple op = true) ↔
      ∀ op ∈ s.operations, isSimple op = true := by
  have hassert : isSimple "assert" = true := by decide
  have hequal : isSimple "=" = true := by decide
  rw [← simple_operators_iff (outcome_eq_ok_iff.mp h).2, Statement.operators_assertionTree]
  simp [hassert, hequal]

/-! ### One line -/

theorem reads_line (h : difference.accepts atoms s = true)
    (hops : ∀ op ∈ s.operations, isSimple op = true) :
    Form.Reads (difference.line atoms s) [s.assertionForm] := by
  obtain ⟨c, hc⟩ := (accepts_iff difference atoms).mp h
  rw [line_of_outcome hc, ← toForm_assertionTree hc]
  have hback := SExpr.readsBack (proper_assertionTree hc) ((simple_assertionTree_iff hc).mpr hops)
  exact hback.reads_line

/-- A batch is read line by line when the accepted statements have simple operations. -/
theorem reads_assertions {statements : List Statement}
    (hops : ∀ s ∈ difference.accepted statements, ∀ op ∈ s.operations, isSimple op = true) :
    Form.Reads (difference.encodeAll statements).assertions
      ((difference.accepted statements).map Statement.assertionForm) := by
  have hlines : ∀ s ∈ difference.accepted statements,
      Form.Reads (difference.line (Statement.atoms statements) s) [s.assertionForm] := by
    intro s hs
    exact reads_line (List.mem_filter.mp hs).2 (hops s hs)
  have hjoin := Form.Reads.join _ _ hlines
  rwa [← List.map_eq_flatMap, ← assertions_eq] at hjoin

/-- The text of an assertion up to its constraint is always cut the same. -/
theorem lexFrom_assertionTree (h : difference.outcome atoms s = .ok c) (rest : List Char) :
    Token.lexFrom .idle ((s.assertionTree c).render.toList ++ rest)
      = (Token.lexFrom .idle (c.render.toList ++ ')' :: ')' :: rest)).map
          ([.opening, .symbol "assert", .opening, .symbol "=", .symbol s.atom] ++ ·) := by
  have hassert : isSimple "assert" = true := by decide
  have hequal : isSimple "=" = true := by decide
  have houter : SExpr.closingText [.app "=" [.symbol s.atom, c]] rest
      = (SExpr.app "=" [.symbol s.atom, c]).render.toList ++ ')' :: rest := by
    simp [SExpr.closingText]
  have hinner : SExpr.closingText [.symbol s.atom, c] (')' :: rest)
      = (Smt.symbol s.atom).toList ++ ' ' :: (c.render.toList ++ ')' :: ')' :: rest) := by
    simp [SExpr.closingText, String.intercalate_cons_cons, SExpr.render]
  rw [Statement.assertionTree, (SExpr.Proper.unary "assert" (proper_equation h)).render_app,
    Token.lexFrom_opening,
    Token.lexFrom_simple hassert (SExpr.delimited_blank _), Token.lexFrom_blank, houter,
    (proper_equation h).render_app, Token.lexFrom_opening,
    Token.lexFrom_simple hequal (SExpr.delimited_blank _), Token.lexFrom_blank, hinner,
    Token.lexFrom_symbol (quotable_atom h) (SExpr.delimited_blank _), Token.lexFrom_blank]
  simp only [Option.map_map]
  rfl

/-- A line is one assertion about its atom exactly when the constraint in it is one form. -/
theorem reads_line_iff (h : difference.outcome atoms s = .ok c) (f : Form) :
    (∀ rest : String, Form.readAll (difference.line atoms s ++ rest) = (Form.readAll rest).map
        (.list [.symbol "assert", .list [.symbol "=", .symbol s.atom, f]] :: ·)) ↔
      Form.readAll c.render = some [f] := by
  obtain ⟨operator, arguments, rfl⟩ := exists_app (outcome_eq_ok_iff.mp h).2
  obtain ⟨w, hw⟩ := (proper_of_outcome h).exists_closing
  have htext : ∀ rest : List Char, (difference.line atoms s).toList ++ rest
      = (s.assertionTree (.app operator arguments)).render.toList ++ '\n' :: rest := by
    intro rest
    rw [line_of_outcome h, String.toList_append, List.append_assoc]
    rfl
  rw [Form.readAll_eq_some_iff, Form.tokensAll_singleton, hw]
  constructor
  · intro hread
    have hempty : Form.readAll "" = some [] := rfl
    have hline := hread ""
    rw [hempty, Option.map_some, String.append_empty, Form.readAll_eq_some_iff, Token.lex,
      ← List.append_nil (difference.line atoms s).toList, htext, lexFrom_assertionTree h, hw]
      at hline
    obtain ⟨ts, hts, heq⟩ := Option.map_eq_some_iff.mp hline
    refine Token.lex_of_closed ?_
    rw [hts]
    simpa [Form.tokensAll, Form.tokens] using heq
  · intro hlex rest
    have hreads : Form.Reads (difference.line atoms s)
        [.list [.symbol "assert", .list [.symbol "=", .symbol s.atom, f]]] := by
      intro more
      rw [htext, lexFrom_assertionTree h, hw,
        Token.lexFrom_closed (Form.comment_not_mem_tokens f) hlex, Token.lexFrom_closing,
        Token.lexFrom_closing, Token.lexFrom_newline]
      simp [Form.tokensAll, Form.tokens, Function.comp_def]
    exact hreads.readAll_append rest

end Fragment

/--
**A line is one assertion exactly when the constraint in it is one form.**  The assertions
of a batch are the lines of its accepted statements, and each ends with a line break.  A
line is one assertion about its atom, and the script is read on behind it as if it stood
alone, exactly when the text of the constraint is one form.  It is the statement's own
assertion exactly when the operations of the statement are simple symbols.
-/
theorem line_is_one_form_iff {statements : List Statement} {s : Statement} {c : SExpr}
    (hs : s ∈ statements)
    (hc : Fragment.difference.outcome (Statement.atoms statements) s = .ok c) :
    let lineOf := Fragment.difference.line (Statement.atoms statements)
    s ∈ Fragment.difference.accepted statements ∧
      (Fragment.difference.encodeAll statements).assertions
        = String.join ((Fragment.difference.accepted statements).map lineOf) ∧
      lineOf s = s.assertion c ++ "\n" ∧
      (∀ f : Form,
        (∀ rest : String, Form.readAll (lineOf s ++ rest) = (Form.readAll rest).map
          (.list [.symbol "assert", .list [.symbol "=", .symbol s.atom, f]] :: ·)) ↔
        Form.readAll c.render = some [f]) ∧
      ((∀ rest : String,
          Form.readAll (lineOf s ++ rest) = (Form.readAll rest).map (s.assertionForm :: ·)) ↔
        ∀ op ∈ s.operations, isSimple op = true) := by
  intro lineOf
  have hline : lineOf s = (s.assertionTree c).render ++ "\n" := Fragment.line_of_outcome hc
  have haccepted : s ∈ Fragment.difference.accepted statements :=
    Fragment.mem_accepted.mpr ⟨hs, c, hc⟩
  refine ⟨haccepted, Fragment.assertions_eq _ _, hline, Fragment.reads_line_iff hc, ?_⟩
  constructor
  · intro hread
    have hempty : Form.readAll "" = some [] := rfl
    have hown : Form.readAll (lineOf s) = some [s.assertionForm] := by
      have := hread ""
      rwa [hempty, Option.map_some, String.append_empty] at this
    rw [hline, ← Fragment.toForm_assertionTree hc] at hown
    exact (Fragment.simple_assertionTree_iff hc).mp
      ((Fragment.proper_assertionTree hc).readAll_line_iff.mp hown)
  · intro hops rest
    have haccepts := (List.mem_filter.mp haccepted).2
    exact (Fragment.reads_line haccepts hops).readAll_append rest

theorem nested_minus_is_one_form :
    let head : Term := .app "-" [.var "start(1)", .app "-" [.var "y"]]
    let s : Statement := ⟨"a|", "diff", [⟨[head]⟩], "<=", .const (.int (-3))⟩
    let t : Statement := { s with atom := "let" }
    t ∈ [s, t] ∧
      Fragment.difference.outcome (Statement.atoms [s, t]) t
        = .ok (Difference.constraint head t.right) ∧
      ∀ rest : String,
        Form.readAll (Fragment.difference.line (Statement.atoms [s, t]) t ++ rest)
          = (Form.readAll rest).map (t.assertionForm :: ·) := by
  intro head s t
  have hmem : t ∈ [s, t] := by simp
  have hnames : t.nameError? (Statement.atoms [s, t]) = none := by decide
  have hlower : Fragment.difference.lower t = .ok (Difference.constraint head t.right) := by
    refine Fragment.lower_difference_eq_ok_iff.mpr (Or.inl ⟨rfl, ?_⟩)
    exact Difference.lower_eq_ok_iff.mpr ⟨head, rfl, rfl, rfl, rfl, rfl, rfl⟩
  have houtcome := Fragment.outcome_eq_ok_iff.mpr ⟨hnames, hlower⟩
  have hops : ∀ op ∈ t.operations, isSimple op = true := by decide
  exact ⟨hmem, houtcome, (line_is_one_form_iff hmem houtcome).2.2.2.2.mpr hops⟩

/-- An operation below the top can end the assertion and open another. -/
theorem nested_operation_ends_assertion :
    let inner : Term := .app "z)) 0)))(assert (= a (<= (- x (w" [.var "y"]
    let s : Statement :=
      ⟨"a", "diff", [⟨[.app "-" [.var "x", inner]]⟩], "<=", .const (.int 0)⟩
    s ∈ Fragment.difference.accepted [s] ∧
      (Form.readAll (Fragment.difference.line (Statement.atoms [s]) s)).map List.length
        = some 2 := by
  intro inner s
  have hs : s ∈ Fragment.difference.accepted [s] := by decide
  refine ⟨hs, ?_⟩
  decide

/-! ### The whole script -/

/--
**A script is read back as its header and the assertions of the accepted statements.**
The header has every declarable atom once, and once every declarable variable that is no
atom of the batch, each sort in the order of its bytes.
-/
theorem script_reads_back (statements : List Statement)
    (hops : ∀ s ∈ statements, ∀ op ∈ s.operations, isSimple op = true) :
    let header := Preamble.ofStatements .difference statements
    Form.readAll (header.render ++ (Fragment.difference.encodeAll statements).assertions)
        = some (setLogicForm "QF_IDL" ::
            (header.booleans.map (declarationForm · "Bool") ++
              header.integers.map (declarationForm · "Int") ++
              (Fragment.difference.accepted statements).map Statement.assertionForm)) ∧
      header.booleans.Pairwise Names.Precedes ∧
      (∀ name, name ∈ header.booleans ↔
        (∃ s ∈ statements, s.atom = name) ∧ symbolFault? name = none) ∧
      header.integers.Pairwise Names.Precedes ∧
      (∀ name, name ∈ header.integers ↔
        (∃ s ∈ statements, name ∈ s.leaves) ∧ symbolFault? name = none ∧
          ∀ s ∈ statements, s.atom ≠ name) := by
  intro header
  refine ⟨?_, Preamble.booleans_precedes, fun _ => Preamble.mem_booleans,
    Preamble.integers_precedes, fun _ => Preamble.mem_integers⟩
  have hheader : Form.Reads header.render header.forms := Preamble.reads_ofStatements
  have hassertions := Fragment.reads_assertions fun s hs =>
    hops s (Fragment.mem_accepted.mp hs).1
  rw [(hheader.append hassertions).readAll_eq]
  rfl

theorem mixed_script_reads_back :
    let difference : Statement :=
      ⟨"start(1)", "diff", [⟨[.app "-" [.var "a b", .const (.int (-3))]]⟩], "<=", .var "y"⟩
    let domain : Statement :=
      ⟨"let", "dom", [⟨[.const (.int (-2))]⟩, ⟨[.app ".." [.const (.int 1), .const (.int 5)]]⟩],
        "=", .var "y"⟩
    let script := "(set-logic QF_IDL)\n(declare-fun |let| () Bool)\n" ++
      "(declare-fun |start(1)| () Bool)\n(declare-fun |a b| () Int)\n" ++
      "(declare-fun y () Int)\n(assert (= |start(1)| (<= (- |a b| (- 3)) y)))\n" ++
      "(assert (= |let| (or (= y (- 2)) (and (<= 1 y) (<= y 5)))))\n"
    (∀ s ∈ [difference, domain], ∀ op ∈ s.operations, isSimple op = true) ∧
      (Preamble.ofStatements .difference [difference, domain]).render ++
        (Fragment.difference.encodeAll [difference, domain]).assertions = script ∧
      Form.readAll script
        = some [setLogicForm "QF_IDL", declarationForm "let" "Bool",
            declarationForm "start(1)" "Bool", declarationForm "a b" "Int",
            declarationForm "y" "Int", difference.assertionForm, domain.assertionForm] := by
  intro difference domain script
  have hops : ∀ s ∈ [difference, domain], ∀ op ∈ s.operations, isSimple op = true := by decide
  have htext : (Preamble.ofStatements .difference [difference, domain]).render ++
      (Fragment.difference.encodeAll [difference, domain]).assertions = script := by decide +kernel
  have hbooleans : (Preamble.ofStatements .difference [difference, domain]).booleans
      = ["let", "start(1)"] := by decide
  have hintegers : (Preamble.ofStatements .difference [difference, domain]).integers
      = ["a b", "y"] := by decide
  have haccepted : Fragment.difference.accepted [difference, domain] = [difference, domain] := by
    decide
  have hread := (script_reads_back [difference, domain] hops).1
  rw [htext, hbooleans, hintegers, haccepted] at hread
  exact ⟨hops, htext, hread⟩

end TheoryScript
