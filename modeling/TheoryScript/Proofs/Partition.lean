/-
A batch is partitioned into what is asserted and what is skipped.

There is one verdict on every statement of a batch: the text of its constraint, or the error
that it is skipped for.  The assertions, the diagnostics and the log are three projections
of the list of verdicts, and nothing is lost on the way: a statement has a line or a
diagnostic, and never both.  So the diagnostics answer for the statements that have no line,
and the diagnostic found for an atom is that of the first such statement.
-/
import Mathlib.Data.List.Basic
import TheoryScript.Proofs.Emission
import TheoryScript.Proofs.Smt.ReadBack

namespace TheoryScript

/-! ### Verdicts -/

/-- The verdict on a statement beside the atoms of its batch: the names are checked first. -/
def Fragment.verdict (f : Fragment) (atoms : List String) (s : Statement) :
    Except EncodingError String :=
  match s.nameError? atoms with
  | some error => .error error
  | none => f.encode s

namespace Statement

/-- What a verdict adds to the assertions: a line, or nothing. -/
def lineFor (s : Statement) : Except EncodingError String → String
  | .ok constraint => "(assert (= " ++ Smt.symbol s.atom ++ " " ++ constraint ++ "))\n"
  | .error _ => ""

/-- The diagnostic for a verdict, if it is an error. -/
def diagnosticFor? (theory : String) (s : Statement) : Except EncodingError String → Option Diagnostic
  | .ok _ => none
  | .error error => some { theory, atom := s.atom, category := s.category, error }

/-- The record for a verdict. -/
def recordFor (theory : String) (s : Statement) : Except EncodingError String → LogRecord
  | .ok _ =>
      { severity := .debug
        target := "theory_encoder::logic"
        message := "[" ++ theory ++ "] encoded " ++ s.category ++ " statement " ++ s.atom }
  | .error error =>
      { severity := .warn
        target := "theory_encoder::logic"
        message := "[" ++ theory ++ "] skipping statement " ++ s.atom ++ ": " ++ error.message }

/-- The text of an assertion: whatever the constraint is, neither application is empty. -/
theorem assertion_eq (s : Statement) (c : Smt.SExpr) :
    s.assertion c = "(assert (= " ++ Smt.symbol s.atom ++ " " ++ c.render ++ "))" := by
  have hequation : Smt.equation (Smt.symbol s.atom) c.render
      = "(= " ++ Smt.symbol s.atom ++ " " ++ c.render ++ ")" := by
    rw [Smt.equation, Smt.application_eq (Smt.symbol_ne_empty s.atom)]
    simp [String.intercalate_cons_cons, ← String.toList_inj]
  have hne : Smt.equation (Smt.symbol s.atom) c.render ≠ "" :=
    Smt.application_ne_empty (Smt.symbol_ne_empty s.atom) _
  rw [assertion, Smt.assertion, Smt.application_eq hne, String.intercalate_singleton, hequation]
  simp [← String.toList_inj]

theorem diagnosticFor?_eq_none_iff {theory : String} {s : Statement}
    {verdict : Except EncodingError String} :
    s.diagnosticFor? theory verdict = none ↔ ∃ c, verdict = .ok c := by
  cases verdict with
  | error error => simp [diagnosticFor?]
  | ok c => simp [diagnosticFor?]

theorem diagnosticFor?_eq_some_iff {theory : String} {s : Statement}
    {verdict : Except EncodingError String} {d : Diagnostic} :
    s.diagnosticFor? theory verdict = some d ↔
      ∃ error, verdict = .error error ∧ d = ⟨theory, s.atom, s.category, error⟩ := by
  cases verdict with
  | error error => simp [diagnosticFor?, eq_comm]
  | ok c => simp [diagnosticFor?]

end Statement

/-! ### The results of a run as projections of the verdicts -/

namespace Fragment

variable (f : Fragment) (atoms : List String)

theorem verdict_eq (s : Statement) :
    f.verdict atoms s = (f.outcome atoms s).map Smt.SExpr.render := by
  unfold verdict outcome
  cases s.nameError? atoms with
  | some error => rfl
  | none => rfl

theorem accepts_eq_isOk_verdict (s : Statement) :
    f.accepts atoms s = (f.verdict atoms s).isOk := by
  rw [accepts, verdict_eq]
  cases f.outcome atoms s with
  | error error => rfl
  | ok c => rfl

theorem line_eq_lineFor (s : Statement) : f.line atoms s = s.lineFor (f.verdict atoms s) := by
  rw [line, verdict_eq]
  cases f.outcome atoms s with
  | error error => rfl
  | ok c =>
      show s.assertion c ++ "\n" = _
      rw [Statement.assertion_eq]
      simp [Except.map, Statement.lineFor, ← String.toList_inj]

theorem skipped_eq_diagnosticFor? (s : Statement) :
    f.skipped atoms s = (s.diagnosticFor? f.theory (f.verdict atoms s)).toList := by
  rw [skipped, verdict_eq]
  cases f.outcome atoms s with
  | error error => rfl
  | ok c => rfl

theorem record_eq_recordFor (s : Statement) :
    f.record atoms s = s.recordFor f.theory (f.verdict atoms s) := by
  rw [record, verdict_eq]
  cases f.outcome atoms s with
  | error error =>
      simp [Except.map, Statement.recordFor, skippedRecord, logMark, logTarget,
        ← String.toList_inj]
  | ok c =>
      simp [Except.map, Statement.recordFor, encodedRecord, logMark, logTarget,
        ← String.toList_inj]

/-- The results of a batch, read off the verdicts on its statements. -/
def collect (statements : List Statement)
    (verdict : Statement → Except EncodingError String) : Encoding where
  assertions := String.join (statements.map fun s => s.lineFor (verdict s))
  diagnostics := ⟨statements.filterMap fun s => s.diagnosticFor? f.theory (verdict s)⟩
  log := statements.map fun s => s.recordFor f.theory (verdict s)

/-- **The results of a batch are projections of its verdicts.** -/
theorem encodeAll_eq_collect (statements : List Statement) :
    f.encodeAll statements = f.collect statements (f.verdict (Statement.atoms statements)) := by
  rw [encodeAll_eq, collect]
  congr 1
  · exact congrArg String.join (List.map_congr_left fun s _ => f.line_eq_lineFor _ s)
  · rw [List.filterMap_eq_flatMap_toList]
    exact congrArg Diagnostics.mk
      (List.flatMap_congr fun s _ => f.skipped_eq_diagnosticFor? _ s)
  · exact List.map_congr_left fun s _ => f.record_eq_recordFor _ s

/-! ### What the diagnostics answer -/

section

variable {f} {statements : List Statement} {verdict : Statement → Except EncodingError String}

/-- A statement without a diagnostic is one that was asserted. -/
theorem countP_isOk_add_size :
    statements.countP (fun s => (verdict s).isOk) + (f.collect statements verdict).diagnostics.size
      = statements.length := by
  have hskipped : ∀ s : Statement,
      (s.diagnosticFor? f.theory (verdict s)).isSome = !(verdict s).isOk := by
    intro s
    cases verdict s with
    | error error => rfl
    | ok c => rfl
  rw [collect, Diagnostics.size, List.length_filterMap_eq_countP,
    List.length_eq_countP_add_countP fun s => (verdict s).isOk]
  simp [hskipped]

/-- The accepted statements and the diagnostics are together as many as the statements. -/
theorem length_accepted_add_size :
    (f.accepted statements).length + (f.encodeAll statements).diagnostics.size
      = statements.length := by
  have haccepts : f.accepts (Statement.atoms statements)
      = fun s => (f.verdict (Statement.atoms statements) s).isOk :=
    funext (f.accepts_eq_isOk_verdict _)
  rw [accepted, haccepts, ← List.countP_eq_length_filter, encodeAll_eq_collect,
    countP_isOk_add_size]

theorem isComplete_collect_iff :
    (f.collect statements verdict).isComplete = true ↔ ∀ s ∈ statements, ∃ c, verdict s = .ok c := by
  rw [collect, Encoding.isComplete, Diagnostics.isEmpty, List.isEmpty_iff,
    List.filterMap_eq_nil_iff]
  exact forall₂_congr fun s _ => Statement.diagnosticFor?_eq_none_iff

/-- A batch is complete when all its statements are accepted. -/
theorem isComplete_encodeAll_iff :
    (f.encodeAll statements).isComplete = true ↔ ∀ s ∈ statements, s ∈ f.accepted statements := by
  rw [encodeAll_eq_collect, isComplete_collect_iff]
  refine forall₂_congr fun s hs => ?_
  rw [← isOk_iff_exists, ← accepts_eq_isOk_verdict, accepted, List.mem_filter]
  exact (and_iff_right hs).symm

/-- No diagnostic is found for an atom when its statements were all asserted. -/
theorem forAtom?_collect_eq_none_iff {atom : String} :
    (f.collect statements verdict).diagnostics.forAtom? atom = none ↔
      ∀ s ∈ statements, s.atom = atom → ∃ c, verdict s = .ok c := by
  rw [collect, Diagnostics.forAtom?, List.find?_eq_none]
  constructor
  · intro h s hs hatom
    have hnone : s.diagnosticFor? f.theory (verdict s) = none ↔ ∃ c, verdict s = .ok c :=
      Statement.diagnosticFor?_eq_none_iff
    rw [← hnone, Option.eq_none_iff_forall_ne_some]
    intro d hd
    obtain ⟨error, -, rfl⟩ := Statement.diagnosticFor?_eq_some_iff.mp hd
    exact h _ (List.mem_filterMap.mpr ⟨s, hs, hd⟩) (by simpa using hatom)
  · intro h d hd hatom
    obtain ⟨s, hs, hd⟩ := List.mem_filterMap.mp hd
    obtain ⟨error, herror, rfl⟩ := Statement.diagnosticFor?_eq_some_iff.mp hd
    obtain ⟨c, hc⟩ := h s hs (by simpa using hatom)
    simp [herror] at hc

/-- Whether the diagnostic for a verdict is one for an atom. -/
theorem any_diagnosticFor?_iff {s : Statement} {atom : String} :
    (s.diagnosticFor? f.theory (verdict s)).any (·.atom == atom) = true ↔
      s.atom = atom ∧ ∃ error, verdict s = .error error := by
  cases verdict s with
  | error error => simp [Statement.diagnosticFor?]
  | ok c => simp [Statement.diagnosticFor?]

/-- The diagnostic found for an atom is that of its first statement that was skipped. -/
theorem forAtom?_collect_eq_some_iff {atom : String} {d : Diagnostic} :
    (f.collect statements verdict).diagnostics.forAtom? atom = some d ↔
      ∃ before s after error, statements = before ++ s :: after ∧ s.atom = atom ∧
        verdict s = .error error ∧ d = ⟨f.theory, s.atom, s.category, error⟩ ∧
        ∀ t ∈ before, t.atom = atom → ∃ c, verdict t = .ok c := by
  have hpassed : ∀ t : Statement,
      (!(t.diagnosticFor? f.theory (verdict t)).any (·.atom == atom)) = true ↔
        (t.atom = atom → ∃ c, verdict t = .ok c) := by
    intro t
    rw [Bool.not_eq_true', ← Bool.not_eq_true, any_diagnosticFor?_iff]
    cases verdict t with
    | error error => simp
    | ok c => simp
  rw [collect, Diagnostics.forAtom?, List.find?_filterMap, Option.bind_eq_some_iff]
  constructor
  · rintro ⟨s, hfind, hd⟩
    obtain ⟨hs, before, after, hsplit, hbefore⟩ := List.find?_eq_some_iff_append.mp hfind
    obtain ⟨error, herror, hd⟩ := Statement.diagnosticFor?_eq_some_iff.mp hd
    exact ⟨before, s, after, error, hsplit, (any_diagnosticFor?_iff.mp hs).1, herror, hd,
      fun t ht => (hpassed t).mp (hbefore t ht)⟩
  · rintro ⟨before, s, after, error, hsplit, hatom, herror, hd, hbefore⟩
    refine ⟨s, List.find?_eq_some_iff_append.mpr ⟨?_, before, after, hsplit, fun t ht => ?_⟩,
      Statement.diagnosticFor?_eq_some_iff.mpr ⟨error, herror, hd⟩⟩
    · exact any_diagnosticFor?_iff.mpr ⟨hatom, error, herror⟩
    · exact (hpassed t).mpr (hbefore t ht)

end

end Fragment

/--
**A batch is partitioned without loss.**  A run into a sink without a limit never fails, and
its assertions, its diagnostics and its log are projections of the verdicts, in input order.
Hence the asserted and the skipped statements are together all of them, a batch is complete
when nothing was skipped, and the diagnostic for an atom is that of the first skipped
statement with that atom, if there is one.
-/
theorem batch_is_partitioned (f : Fragment) (statements : List Statement) :
    let verdict := f.verdict (Statement.atoms statements)
    let encoding := f.encodeAll statements
    (f.emit statements {}).2 = true ∧
      encoding.assertions = String.join (statements.map fun s => s.lineFor (verdict s)) ∧
      encoding.diagnostics.toList
        = statements.filterMap (fun s => s.diagnosticFor? f.theory (verdict s)) ∧
      encoding.log = statements.map (fun s => s.recordFor f.theory (verdict s)) ∧
      statements.countP (fun s => (verdict s).isOk) + encoding.diagnostics.size
        = statements.length ∧
      (encoding.isComplete = true ↔ ∀ s ∈ statements, ∃ c, verdict s = .ok c) ∧
      ∀ atom,
        (encoding.diagnostics.forAtom? atom = none ↔
          ∀ s ∈ statements, s.atom = atom → ∃ c, verdict s = .ok c) ∧
        ∀ d, encoding.diagnostics.forAtom? atom = some d ↔
          ∃ before s after error, statements = before ++ s :: after ∧ s.atom = atom ∧
            verdict s = .error error ∧ d = ⟨f.theory, s.atom, s.category, error⟩ ∧
            ∀ t ∈ before, t.atom = atom → ∃ c, verdict t = .ok c := by
  intro verdict encoding
  have hsuccess : (f.emit statements {}).2 = true := by rw [Fragment.emit_unlimited]
  have hencoding : encoding = f.collect statements verdict := f.encodeAll_eq_collect statements
  rw [hencoding]
  exact ⟨hsuccess, rfl, rfl, rfl, Fragment.countP_isOk_add_size, Fragment.isComplete_collect_iff,
    fun atom => ⟨Fragment.forAtom?_collect_eq_none_iff,
      fun d => Fragment.forAtom?_collect_eq_some_iff⟩⟩

end TheoryScript
