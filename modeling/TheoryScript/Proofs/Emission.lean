/-
What a run over a batch writes and records.

The run is a loop with three accumulators, and what it does to a statement depends on the
atoms of the batch but not on the other statements.  Every statement adds its own text,
diagnostics and record, and a statement that is skipped adds the empty text, which always
fits.  So one step is the same for both kinds (`emitAll_cons`): add what the statement
adds, and go on if its text fitted.

A run therefore adds what some leading statements add (`emitAll_cases`): all of them, or
those up to the first whose line did not fit.  Without a limit it is all of them, and the
result is three projections of one list of outcomes.  With a limit the sink has seen the
same text up to the place where it was full, since a text that is cut off is cut off at the
same place whatever was to follow it.
-/
import TheoryScript.Batch

namespace TheoryScript

theorem isOk_iff_exists {ε α : Type} {result : Except ε α} :
    result.isOk = true ↔ ∃ a, result = .ok a := by
  cases result with
  | error error => simp [Except.isOk, Except.toBool]
  | ok a => simp [Except.isOk, Except.toBool]

namespace Fragment

variable (f : Fragment) (atoms : List String)

/-! ### What one statement adds -/

/-- Whether a statement is asserted. -/
def accepts (s : Statement) : Bool :=
  (f.outcome atoms s).isOk

/-- The text that a statement adds: its line, or nothing. -/
def line (s : Statement) : String :=
  match f.outcome atoms s with
  | .ok constraint => s.assertion constraint ++ "\n"
  | .error _ => ""

/-- The diagnostics that a statement adds: none, or its own. -/
def skipped (s : Statement) : List Diagnostic :=
  match f.outcome atoms s with
  | .ok _ => []
  | .error error => [.ofStatement f.theory s error]

/-- The record that a statement adds to the log. -/
def record (s : Statement) : LogRecord :=
  match f.outcome atoms s with
  | .ok _ => f.encodedRecord s
  | .error error => f.skippedRecord s error

theorem accepts_iff {s : Statement} :
    f.accepts atoms s = true ↔ ∃ c, f.outcome atoms s = .ok c :=
  isOk_iff_exists

theorem line_of_not_accepts {s : Statement} (h : f.accepts atoms s = false) :
    f.line atoms s = "" := by
  cases hs : f.outcome atoms s with
  | error error => rw [line, hs]
  | ok c =>
      rw [(f.accepts_iff atoms).mpr ⟨c, hs⟩] at h
      exact Bool.noConfusion h

theorem skipped_of_accepts {s : Statement} (h : f.accepts atoms s = true) :
    f.skipped atoms s = [] := by
  obtain ⟨c, hc⟩ := (f.accepts_iff atoms).mp h
  rw [skipped, hc]

/-! ### One step -/

/-- The text that some statements add, one after the other. -/
def text (statements : List Statement) : String :=
  String.join (statements.map (f.line atoms))

/-- What was written and recorded, with all that a list of statements adds. -/
def after (p : Progress) (statements : List Statement) : Progress where
  sink := p.sink.store (f.text atoms statements)
  diagnostics := ⟨p.diagnostics.toList ++ statements.flatMap (f.skipped atoms)⟩
  log := p.log ++ statements.map (f.record atoms)

theorem text_nil : f.text atoms [] = "" := rfl

theorem text_cons (s : Statement) (rest : List Statement) :
    f.text atoms (s :: rest) = f.line atoms s ++ f.text atoms rest := by
  simp [text]

/-- The text of statements goes on behind any of them. -/
theorem text_through (before : List Statement) (s : Statement) (rest : List Statement) :
    f.text atoms (before ++ s :: rest) = f.text atoms (before ++ [s]) ++ f.text atoms rest := by
  simp [text, String.join_append, String.append_assoc]

theorem after_nil (p : Progress) : f.after atoms p [] = p := by
  simp [after, text_nil]

theorem after_cons (p : Progress) (s : Statement) (rest : List Statement) :
    f.after atoms p (s :: rest) = f.after atoms (f.after atoms p [s]) rest := by
  simp [after, text_cons, text_nil, Sink.store_append]

/-- **A step adds what its statement adds, and the run goes on if the text fitted.** -/
theorem emitAll_cons (p : Progress) (s : Statement) (rest : List Statement) :
    f.emitAll atoms (s :: rest) p
      = if p.sink.fits (f.line atoms s) then f.emitAll atoms rest (f.after atoms p [s])
        else (f.after atoms p [s], false) := by
  cases h : f.outcome atoms s with
  | error error =>
      have hafter : f.after atoms p [s]
          = { p with
              diagnostics := p.diagnostics.push (.ofStatement f.theory s error)
              log := p.log ++ [f.skippedRecord s error] } := by
        simp [after, text, line, skipped, record, h, Diagnostics.push]
      rw [hafter]
      simp [emitAll, line, h]
  | ok constraint =>
      have hafter : f.after atoms p [s]
          = { p with
              sink := p.sink.store (s.assertion constraint ++ "\n")
              log := p.log ++ [f.encodedRecord s] } := by
        simp [after, text, line, skipped, record, h]
      rw [hafter]
      simp only [emitAll, h, line, Sink.writeLine_eq_write, Sink.write]
      cases p.sink.fits (s.assertion constraint ++ "\n") with
      | true => rfl
      | false => rfl

/-! ### A whole run -/

/-- **A run adds what its statements add, up to the first whose line does not fit.** -/
theorem emitAll_cases (statements : List Statement) (p : Progress) :
    (p.sink.fits (f.text atoms statements) = true ∧
      f.emitAll atoms statements p = (f.after atoms p statements, true)) ∨
    ∃ before s rest, statements = before ++ s :: rest ∧ f.accepts atoms s = true ∧
      p.sink.fits (f.text atoms before) = true ∧
      p.sink.fits (f.text atoms (before ++ [s])) = false ∧
      f.emitAll atoms statements p = (f.after atoms p (before ++ [s]), false) := by
  induction statements generalizing p with
  | nil => exact Or.inl ⟨p.sink.fits_empty, by rw [emitAll, after_nil]⟩
  | cons s rest ih =>
      have hfits : ∀ more, p.sink.fits (f.text atoms (s :: more))
          = (p.sink.fits (f.line atoms s) &&
              (f.after atoms p [s]).sink.fits (f.text atoms more)) := by
        intro more
        rw [text_cons, Sink.fits_append]
        simp [after, text_cons, text_nil]
      rw [emitAll_cons]
      cases hline : p.sink.fits (f.line atoms s) with
      | true =>
          rcases ih (f.after atoms p [s]) with ⟨hall, hrun⟩ |
            ⟨before, t, later, rfl, ht, hbefore, hthrough, hrun⟩
          · refine Or.inl ⟨?_, ?_⟩
            · rw [hfits, hline, hall, Bool.and_self]
            · rw [if_pos rfl, hrun, ← after_cons]
          · refine Or.inr ⟨s :: before, t, later, rfl, ht, ?_, ?_, ?_⟩
            · rw [hfits, hline, hbefore, Bool.and_self]
            · rw [List.cons_append, hfits, hline, hthrough, Bool.true_and]
            · rw [if_pos rfl, hrun, List.cons_append, ← after_cons]
      | false =>
          have haccepts : f.accepts atoms s = true := by
            rw [← Bool.not_eq_false]
            intro hskip
            rw [line_of_not_accepts f atoms hskip, Sink.fits_empty] at hline
            exact Bool.noConfusion hline
          refine Or.inr ⟨[], s, rest, rfl, haccepts, p.sink.fits_empty, ?_, ?_⟩
          · rw [List.nil_append, hfits, hline, Bool.false_and]
          · rw [if_neg Bool.false_ne_true, List.nil_append]

/-- **A run without a limit adds what its statements add, in input order, and never fails.** -/
theorem emitAll_unlimited (statements : List Statement) (p : Progress)
    (hp : p.sink.limit = none) :
    f.emitAll atoms statements p = (f.after atoms p statements, true) := by
  have hfits : ∀ text, p.sink.fits text = true := by
    intro text
    simp only [Sink.fits, hp]
  rcases emitAll_cases f atoms statements p with ⟨-, hrun⟩ | ⟨before, s, rest, -, -, -, hnot, -⟩
  · exact hrun
  · rw [hfits] at hnot
    exact Bool.noConfusion hnot

theorem emit_unlimited (statements : List Statement) :
    f.emit statements {} = (f.after (Statement.atoms statements) {} statements, true) :=
  emitAll_unlimited f _ statements {} rfl

theorem encodeAll_eq (statements : List Statement) :
    f.encodeAll statements
      = { assertions := f.text (Statement.atoms statements) statements
          diagnostics := ⟨statements.flatMap (f.skipped (Statement.atoms statements))⟩
          log := statements.map (f.record (Statement.atoms statements)) } := by
  rw [encodeAll, emit_unlimited]
  simp [after, Sink.store]

/-- Behind a text that was written before, a run writes and records what it does without one. -/
theorem emit_behind (text : String) (statements : List Statement) :
    f.emit statements { sink := { text } }
      = ({ sink := { text := text ++ (f.encodeAll statements).assertions }
           diagnostics := (f.encodeAll statements).diagnostics
           log := (f.encodeAll statements).log }, true) := by
  rw [emit, emitAll_unlimited f _ statements _ rfl, encodeAll_eq]
  simp [after, Sink.store]

end Fragment

/-! ### The asserted statements of a batch -/

/-- The statements of a batch that are asserted, in input order. -/
def Fragment.accepted (f : Fragment) (statements : List Statement) : List Statement :=
  statements.filter (f.accepts (Statement.atoms statements))

theorem Fragment.mem_accepted {f : Fragment} {statements : List Statement} {s : Statement} :
    s ∈ f.accepted statements ↔
      s ∈ statements ∧ ∃ c, f.outcome (Statement.atoms statements) s = .ok c := by
  rw [accepted, List.mem_filter, accepts_iff]

/-- The assertions of a batch are the lines of its accepted statements. -/
theorem Fragment.assertions_eq (f : Fragment) (statements : List Statement) :
    (f.encodeAll statements).assertions
      = String.join ((f.accepted statements).map (f.line (Statement.atoms statements))) := by
  have hlines : ∀ (atoms : List String) (ss : List Statement),
      f.text atoms ss = f.text atoms (ss.filter (f.accepts atoms)) := by
    intro atoms ss
    induction ss with
    | nil => rfl
    | cons s ss ih =>
        rw [text_cons, ih]
        cases h : f.accepts atoms s with
        | false => rw [line_of_not_accepts f atoms h, List.filter_cons_of_neg (by simp [h]),
            String.empty_append]
        | true => rw [List.filter_cons_of_pos h, text_cons]
  rw [encodeAll_eq, hlines]
  rfl

/-! ### A run with a limit -/

/-- What does not fit is cut off at the same place, whatever was to be written behind it. -/
theorem Fragment.store_text_of_not_fits (f : Fragment) (atoms : List String) {k : Sink}
    {before rest : List Statement} {s : Statement}
    (h : k.fits (f.text atoms (before ++ [s])) = false) :
    k.store (f.text atoms (before ++ s :: rest)) = k.store (f.text atoms (before ++ [s])) := by
  rw [text_through, Sink.store_append, Sink.store_of_not_fits h]

/--
**A run with a limit writes what fits of the text of a run without one.**  It succeeds
exactly when that text fits, and then its diagnostics are those of the run without a limit.
Otherwise there is a first statement whose line does not fit behind the lines before it,
and the diagnostics are those of the statements skipped before it.  What the sink and the
diagnostics held earlier stays in front.
-/
theorem limited_run_writes_what_fits (f : Fragment) (statements : List Statement)
    (earlier : String) (limit : Nat) (diagnostics : Diagnostics) (log : List LogRecord) :
    let atoms := Statement.atoms statements
    let unlimited := f.encodeAll statements
    let room := limit - earlier.length
    let start : Progress := { sink := ⟨earlier, some limit⟩, diagnostics, log }
    let run := f.emit statements start
    run.1.sink
        = ⟨earlier ++ String.ofList (unlimited.assertions.toList.take room), some limit⟩ ∧
      (run.2 = true ↔ unlimited.assertions.length ≤ room) ∧
      (run.2 = true →
        run.1.diagnostics.toList = diagnostics.toList ++ unlimited.diagnostics.toList) ∧
      (run.2 = false → ∃ before s rest, statements = before ++ s :: rest ∧
        f.accepts atoms s = true ∧
        (f.text atoms before).length ≤ room ∧ room < (f.text atoms (before ++ [s])).length ∧
        run.1.diagnostics.toList = diagnostics.toList ++ before.flatMap (f.skipped atoms)) := by
  intro atoms unlimited room start run
  have htext : unlimited.assertions = f.text atoms statements := by
    simp only [unlimited, Fragment.encodeAll_eq, atoms]
  have hskipped : unlimited.diagnostics.toList = statements.flatMap (f.skipped atoms) := by
    simp only [unlimited, Fragment.encodeAll_eq, atoms]
  have hfits : ∀ text, start.sink.fits text = decide (text.length ≤ room) := fun text =>
    Sink.fits_limited rfl text
  have hstore : ∀ text, start.sink.store text
      = ⟨earlier ++ String.ofList (text.toList.take room), some limit⟩ := fun text =>
    Sink.store_limited rfl text
  rw [htext, hskipped]
  rcases Fragment.emitAll_cases f atoms statements start with ⟨hall, hend⟩ |
    ⟨before, s, rest, hsplit, hs, hbefore, hnot, hend⟩
  · have hrun : run = (f.after atoms start statements, true) := hend
    rw [hfits, decide_eq_true_eq] at hall
    rw [hrun]
    refine ⟨hstore _, ⟨fun _ => hall, fun _ => rfl⟩, fun _ => rfl, fun hfailed => ?_⟩
    exact Bool.noConfusion hfailed
  · have hrun : run = (f.after atoms start (before ++ [s]), false) := hend
    have hcut : start.sink.store (f.text atoms statements)
        = start.sink.store (f.text atoms (before ++ [s])) := by
      rw [hsplit, Fragment.store_text_of_not_fits f atoms hnot]
    rw [hfits, decide_eq_true_eq] at hbefore
    rw [hfits, decide_eq_false_iff_not, Nat.not_le] at hnot
    have hlong : room < (f.text atoms statements).length := by
      rw [hsplit, Fragment.text_through, String.length_append]
      omega
    have hdiagnostics : run.1.diagnostics.toList
        = diagnostics.toList ++ before.flatMap (f.skipped atoms) := by
      rw [hrun]
      simp [Fragment.after, start, Fragment.skipped_of_accepts f atoms hs]
    refine ⟨?_, ?_, ?_, fun _ => ⟨before, s, rest, hsplit, hs, hbefore, hnot, hdiagnostics⟩⟩
    · rw [hrun, ← hstore, hcut]
      rfl
    · rw [hrun]
      exact ⟨fun hdone => Bool.noConfusion hdone, fun hfit => absurd hfit (Nat.not_le.mpr hlong)⟩
    · rw [hrun]
      exact fun hdone => Bool.noConfusion hdone

end TheoryScript
