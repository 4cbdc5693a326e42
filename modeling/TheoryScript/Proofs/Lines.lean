/-
One assertion, one line.

An assertion is written without a line feed of its own, and one stands behind it.  So the
lines of a batch are its assertions, as long as nothing in an assertion brings a line feed
along.  What an assertion takes from its statement are the atom, the variables and the
operations.  A name that holds a line feed is put between bars and not refused, and an
operation is written as it is, so either can break its assertion over several lines.  A
carriage return does no harm: it ends a line only with a line feed right behind it, and what
stands before the line feed of an assertion is a bracket.

A batch has a line for each accepted statement and one more for each line feed within an
assertion (`length_lines`).  Hence the number of lines alone tells whether the lines are the
assertions.
-/
import TheoryScript.Proofs.Formula
import TheoryScript.Proofs.Partition

namespace TheoryScript

open Smt

/-! ### Line feeds in a tree -/

theorem Smt.newline_mem_symbol {name : String} :
    '\n' ∈ (Smt.symbol name).toList ↔ '\n' ∈ name.toList := by
  unfold Smt.symbol
  split
  · exact Iff.rfl
  · simp

theorem newline_mem_intercalate {texts : List String} :
    '\n' ∈ (" ".intercalate texts).toList ↔ ∃ t ∈ texts, '\n' ∈ t.toList := by
  induction texts with
  | nil => simp
  | cons t more ih =>
      cases more with
      | nil => simp
      | cons u more =>
          rw [String.intercalate_cons_cons, String.toList_append, String.toList_append,
            List.mem_append, List.mem_append, ih, List.exists_mem_cons_iff]
          simp

theorem newline_not_mem_numeral (value : Nat) : '\n' ∉ (toString value).toList := by
  have hdigits : (toString value).toList = Nat.toDigits 10 value := by simp
  rw [hdigits]
  intro h
  exact absurd (Nat.isDigit_of_mem_toDigits (by decide) (by decide) h) (by decide)

namespace Smt.SExpr

/-- The texts that a tree is written from: its operators and its names. -/
def texts (e : SExpr) : List String :=
  e.operators ++ e.symbols

theorem mem_texts_app {operator text : String} {arguments : List SExpr} :
    text ∈ (app operator arguments).texts ↔ text = operator ∨ ∃ a ∈ arguments, text ∈ a.texts := by
  simp only [texts, operators, symbols, operatorsAll_eq_flatMap, symbolsAll_eq_flatMap,
    List.mem_append, List.mem_cons, List.mem_flatMap, or_assoc, ← exists_or, ← and_or_left]

/-- The line feeds in a proper tree are those of the texts it is written from. -/
theorem Proper.newline_mem_render {e : SExpr} (h : e.Proper) :
    '\n' ∈ e.render.toList ↔ ∃ text ∈ e.texts, '\n' ∈ text.toList := by
  induction h with
  | @symbol name hname => simp [render, texts, operators, symbols, newline_mem_symbol]
  | numeral value =>
      have hnone := newline_not_mem_numeral value
      simpa [render, texts, operators, symbols] using hnone
  | @app operator arguments hne hargs ih =>
      have htext := (Proper.app operator hne hargs).render_app []
      rw [List.append_nil] at htext
      have hmem : '\n' ∈ (SExpr.app operator arguments).render.toList ↔
          '\n' ∈ operator.toList ∨ ∃ a ∈ arguments, '\n' ∈ a.render.toList := by
        rw [htext, closingText, List.mem_cons, List.mem_append, List.mem_cons, List.mem_append,
          newline_mem_intercalate]
        simp
      rw [hmem]
      constructor
      · rintro (hop | ⟨a, ha, hfeed⟩)
        · exact ⟨operator, mem_texts_app.mpr (Or.inl rfl), hop⟩
        · obtain ⟨text, htext, hfeed⟩ := (ih a ha).mp hfeed
          exact ⟨text, mem_texts_app.mpr (Or.inr ⟨a, ha, htext⟩), hfeed⟩
      · rintro ⟨text, htext, hfeed⟩
        rcases mem_texts_app.mp htext with rfl | ⟨a, ha, htext⟩
        · exact Or.inl hfeed
        · exact Or.inr ⟨a, ha, (ih a ha).mpr ⟨text, htext, hfeed⟩⟩

end Smt.SExpr

/-! ### Line feeds in an assertion -/

/-- The texts that an assertion takes from its statement. -/
def Statement.texts (s : Statement) : List String :=
  s.atom :: (s.operations ++ s.leaves)

/-- No text that an assertion takes from its statement holds a line feed. -/
def Statement.OnOneLine (s : Statement) : Prop :=
  ∀ text ∈ s.texts, '\n' ∉ text.toList

namespace Fragment

variable {atoms : List String} {s : Statement} {c : SExpr}

theorem newline_mem_constraint (h : difference.outcome atoms s = .ok c) :
    '\n' ∈ c.render.toList ↔ ∃ text ∈ s.operations ++ s.leaves, '\n' ∈ text.toList := by
  have hlower := (outcome_eq_ok_iff.mp h).2
  have hrange : '\n' ∉ Domain.rangeOperation.toList := by decide
  have hlowering : ∀ op ∈ loweringOperators, '\n' ∉ op.toList := by decide
  obtain ⟨hfrom, hto⟩ := operators_of_lower hlower
  rw [(proper_of_outcome h).newline_mem_render]
  constructor
  · rintro ⟨text, htext, hfeed⟩
    refine ⟨text, ?_, hfeed⟩
    rcases List.mem_append.mp htext with hop | hname
    · rcases hto text hop with hop | hop
      · exact List.mem_append_left _ hop
      · exact absurd hfeed (hlowering text hop)
    · exact List.mem_append_right _ ((mem_symbols_iff_mem_leaves hlower).mp hname)
  · rintro ⟨text, htext, hfeed⟩
    refine ⟨text, ?_, hfeed⟩
    rcases List.mem_append.mp htext with hop | hname
    · rcases hfrom text hop with hop | rfl
      · exact List.mem_append_left _ hop
      · exact absurd hfeed hrange
    · exact List.mem_append_right _ ((mem_symbols_iff_mem_leaves hlower).mpr hname)

/-- An assertion is on one line when the texts it takes from its statement are. -/
theorem newline_not_mem_assertion_iff (h : difference.outcome atoms s = .ok c) :
    '\n' ∉ (s.assertion c).toList ↔ s.OnOneLine := by
  have hmem : '\n' ∈ (s.assertion c).toList ↔
      '\n' ∈ s.atom.toList ∨ '\n' ∈ c.render.toList := by
    rw [Statement.assertion_eq]
    simp [newline_mem_symbol]
  rw [hmem, newline_mem_constraint h, Statement.OnOneLine, Statement.texts]
  simp

end Fragment

/-! ### The lines of a batch -/

namespace Fragment

variable (f : Fragment) (atoms : List String)

/-- The text of a statement's assertion, if it has one. -/
def assertionText (s : Statement) : String :=
  match f.outcome atoms s with
  | .ok constraint => s.assertion constraint
  | .error _ => ""

theorem assertionText_of_outcome {s : Statement} {c : SExpr} (h : f.outcome atoms s = .ok c) :
    f.assertionText atoms s = s.assertion c := by
  rw [assertionText, h]

theorem lines_encodeAll (statements : List Statement) :
    (f.encodeAll statements).lines
      = Text.lines (String.join (((f.accepted statements).map
          (f.assertionText (Statement.atoms statements))).map (· ++ "\n"))) := by
  have hline : ∀ s ∈ f.accepted statements, f.line (Statement.atoms statements) s
      = f.assertionText (Statement.atoms statements) s ++ "\n" := by
    intro s hs
    obtain ⟨-, c, hc⟩ := mem_accepted.mp hs
    rw [line, assertionText, hc]
  rw [Encoding.lines, assertions_eq, List.map_congr_left hline, List.map_map]
  rfl

/-- A batch has a line for each accepted statement, and one for each line feed in an assertion. -/
theorem length_lines (statements : List Statement) :
    (f.encodeAll statements).lines.length
      = (f.accepted statements).length + (String.join ((f.accepted statements).map
          (f.assertionText (Statement.atoms statements)))).toList.count '\n' := by
  rw [lines_encodeAll, Text.length_lines_join, List.length_map]

section

variable {f} {statements : List Statement}

/-- A batch has as many lines as accepted statements when no assertion holds a line feed. -/
theorem length_lines_eq_iff :
    (f.encodeAll statements).lines.length = (f.accepted statements).length ↔
      ∀ s ∈ f.accepted statements,
        '\n' ∉ (f.assertionText (Statement.atoms statements) s).toList := by
  rw [length_lines, Nat.add_eq_left, List.count_eq_zero, String.toList_join]
  simp

/-- The lines of a batch are its assertions when no assertion holds a line feed. -/
theorem lines_eq (h : ∀ s ∈ f.accepted statements,
      '\n' ∉ (f.assertionText (Statement.atoms statements) s).toList) :
    (f.encodeAll statements).lines
      = (f.accepted statements).map (f.assertionText (Statement.atoms statements)) := by
  rw [lines_encodeAll, Text.lines_join]
  intro t ht
  obtain ⟨s, hs, rfl⟩ := List.mem_map.mp ht
  refine ⟨h s hs, ?_⟩
  -- an assertion ends in a bracket, so no carriage return goes with its end
  obtain ⟨-, c, hc⟩ := mem_accepted.mp hs
  have hbrackets : "))".toList.getLast? = some ')' := rfl
  rw [assertionText_of_outcome f _ hc, Statement.assertion_eq, String.toList_append,
    List.getLast?_append, hbrackets]
  simp

end

end Fragment

/--
**A batch has one line for each assertion exactly when no accepted statement brings a line
feed.**  What counts are the atom, the variables and the operations of the accepted
statements.  If none of them holds a line feed, the lines are the assertions, in input order,
and lines and diagnostics are together as many as the statements.  Otherwise not even the
number of lines is right.
-/
theorem lines_are_assertions_iff (statements : List Statement) :
    let accepted := Fragment.difference.accepted statements
    let encoding := Fragment.difference.encodeAll statements
    (List.Forall₂ (fun s line => ∃ constraint, Fragment.difference.encode s = .ok constraint ∧
        line = "(assert (= " ++ Smt.symbol s.atom ++ " " ++ constraint ++ "))")
      accepted encoding.lines ↔ ∀ s ∈ accepted, s.OnOneLine) ∧
    (encoding.lines.length = accepted.length ↔ ∀ s ∈ accepted, s.OnOneLine) ∧
    (encoding.lines.length + encoding.diagnostics.size = statements.length ↔
      ∀ s ∈ accepted, s.OnOneLine) := by
  intro accepted encoding
  let text := Fragment.difference.assertionText (Statement.atoms statements)
  have hfeeds : (∀ s ∈ accepted, '\n' ∉ (text s).toList) ↔ ∀ s ∈ accepted, s.OnOneLine := by
    refine forall₂_congr fun s hs => ?_
    obtain ⟨-, c, hc⟩ := Fragment.mem_accepted.mp hs
    simp only [text, Fragment.assertionText_of_outcome _ _ hc]
    exact Fragment.newline_not_mem_assertion_iff hc
  have hlength : encoding.lines.length = accepted.length ↔ ∀ s ∈ accepted, s.OnOneLine :=
    Fragment.length_lines_eq_iff.trans hfeeds
  have hsize : accepted.length + encoding.diagnostics.size = statements.length :=
    Fragment.length_accepted_add_size
  refine ⟨⟨fun h => hlength.mp h.length_eq.symm, fun h => ?_⟩, hlength, ?_⟩
  · have hlines : encoding.lines = accepted.map text := Fragment.lines_eq (hfeeds.mpr h)
    rw [hlines, List.forall₂_map_right_iff, List.forall₂_same]
    intro s hs
    obtain ⟨-, c, hc⟩ := Fragment.mem_accepted.mp hs
    have hencode : Fragment.difference.encode s = .ok c.render := by
      rw [Fragment.encode, (Fragment.outcome_eq_ok_iff.mp hc).2]
      rfl
    refine ⟨c.render, hencode, ?_⟩
    rw [← Statement.assertion_eq]
    exact Fragment.assertionText_of_outcome _ _ hc
  · rw [← hlength, ← hsize]
    omega

/-- An atom with a line feed is accepted, and its assertion is cut in two. -/
theorem line_feed_in_atom_cuts_assertion :
    let s : Statement :=
      ⟨"a\nb", "diff", [⟨[.app "-" [.var "x", .var "y"]]⟩], "<=", .const (.int 0)⟩
    s ∈ Fragment.difference.accepted [s] ∧
      (Fragment.difference.encodeAll [s]).lines = ["(assert (= |a", "b| (<= (- x y) 0)))"] := by
  decide +kernel

end TheoryScript
