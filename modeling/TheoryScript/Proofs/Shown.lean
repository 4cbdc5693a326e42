/-
What is shown of a run.

A verbosity lets records of some severities through, and these are listed here verbosity by
verbosity (`Verbosity.severities`), from none to all of them.  What is shown of a list of
events is the records of these severities and everything that is no record, in order
(`shownAt`).  So nothing is shown of the records at the strictest verbosity, and a stricter
verbosity only leaves out more of them.

Which verbosity prevails is a question of words: a level of the environment goes before the
verbosity of the options if it is the name or the number of a verbosity.
-/
import Mathlib.Data.List.Basic
import TheoryScript.CommandLine.Run
import TheoryScript.Proofs.OptionsFile

namespace TheoryScript

/-! ### Severities -/

namespace Verbosity

/-- The severities of the records that are shown, the most serious first. -/
def severities : Verbosity → List Severity
  | off => []
  | atLeast .error => [.error]
  | atLeast .warn => [.error, .warn]
  | atLeast .info => [.error, .warn, .info]
  | atLeast .debug => [.error, .warn, .info, .debug]
  | atLeast .trace => [.error, .warn, .info, .debug, .trace]

theorem shows_iff {v : Verbosity} {s : Severity} : v.shows s = true ↔ s ∈ v.severities := by
  cases v with
  | off => cases s <;> decide
  | atLeast least => cases least <;> cases s <;> decide

/-! ### Levels of the environment -/

/-- The name and the number of each verbosity. -/
def words : List (Verbosity × String × String) :=
  [(off, "OFF", "0"), (atLeast .error, "ERROR", "1"), (atLeast .warn, "WARN", "2"),
    (atLeast .info, "INFO", "3"), (atLeast .debug, "DEBUG", "4"), (atLeast .trace, "TRACE", "5")]

/-- A word is the name of a verbosity, whatever the case of its ASCII letters, or its number. -/
def Called (v : Verbosity) (word : String) : Prop :=
  ∃ name number, (v, name, number) ∈ words ∧ (word.toUpper = name ∨ word = number)

theorem mem_words_iff {v : Verbosity} {name number : String} :
    (v, name, number) ∈ words ↔ name = v.name ∧ number = toString v.rank := by
  have hwords : words = all.map fun v => (v, v.name, toString v.rank) := by decide +kernel
  have hall : v ∈ all := by
    cases v with
    | off => decide
    | atLeast least => cases least <;> decide
  rw [hwords, List.mem_map]
  constructor
  · intro ⟨w, _, heq⟩
    cases heq
    exact ⟨rfl, rfl⟩
  · intro ⟨hname, hnumber⟩
    exact ⟨v, hall, by rw [hname, hnumber]⟩

theorem ofNameOrRank?_of_rank (v : Verbosity) : ofNameOrRank? (toString v.rank) = some v := by
  cases v with
  | off => decide +kernel
  | atLeast least => cases least <;> decide +kernel

/-- **A level is read as the verbosity that it is called.** -/
theorem ofNameOrRank?_eq_some_iff {word : String} {v : Verbosity} :
    ofNameOrRank? word = some v ↔ Called v word := by
  constructor
  · intro h
    refine ⟨v.name, toString v.rank, mem_words_iff.mpr ⟨rfl, rfl⟩, ?_⟩
    unfold ofNameOrRank? at h
    cases hname : ofName? word with
    | some found =>
        rw [hname] at h
        obtain rfl : found = v := Option.some.inj h
        exact Or.inl (ofName?_eq_some_iff.mp hname).symm
    | none =>
        rw [hname] at h
        have hrank := List.find?_some h
        exact Or.inr (beq_iff_eq.mp hrank).symm
  · intro ⟨name, number, hwords, hword⟩
    obtain ⟨rfl, rfl⟩ := mem_words_iff.mp hwords
    rcases hword with hname | rfl
    · rw [ofNameOrRank?, ofName?_eq_some_iff.mpr hname.symm]
    · exact ofNameOrRank?_of_rank v

/-- The verbosity that a level of the environment and a verbosity of one's own come to. -/
inductive Prevails (level : Option String) (own : Verbosity) : Verbosity → Prop
  | environment {word : String} {v : Verbosity} (hlevel : level = some word)
      (hword : Called v word) : Prevails level own v
  | own (h : ∀ word v, level = some word → ¬Called v word) : Prevails level own own

theorem prevails_iff {level : Option String} {own v : Verbosity} :
    Prevails level own v ↔ v = (level.bind ofNameOrRank?).getD own := by
  cases hread : level.bind ofNameOrRank? with
  | some found =>
      obtain ⟨word, rfl, hword⟩ := Option.bind_eq_some_iff.mp hread
      rw [Option.getD_some]
      constructor
      · intro h
        cases h with
        | environment hlevel hcalled =>
            obtain rfl := Option.some.inj hlevel
            exact Option.some.inj ((ofNameOrRank?_eq_some_iff.mpr hcalled).symm.trans hword)
        | own h => exact absurd (ofNameOrRank?_eq_some_iff.mp hword) (h word found rfl)
      · intro h
        rw [h]
        exact .environment rfl (ofNameOrRank?_eq_some_iff.mp hword)
  | none =>
      have hnone : ∀ word w, level = some word → ¬Called w word := by
        intro word w hlevel hcalled
        rw [hlevel, Option.bind_some, ofNameOrRank?_eq_some_iff.mpr hcalled] at hread
        cases hread
      rw [Option.getD_none]
      constructor
      · intro h
        cases h with
        | environment hlevel hcalled => exact absurd hcalled (hnone _ _ hlevel)
        | own _ => rfl
      · intro h
        rw [h]
        exact .own hnone

end Verbosity

namespace CommandLine

/-! ### Events -/

/-- An event that is shown at a verbosity: a record of one of its severities, or no record. -/
def Event.StaysAt (v : Verbosity) : Event → Prop
  | record r => r.severity ∈ v.severities
  | report _ => True
  | failure _ => True

instance (v : Verbosity) : DecidablePred (Event.StaysAt v)
  | .record r => inferInstanceAs (Decidable (r.severity ∈ v.severities))
  | .report _ => isTrue trivial
  | .failure _ => isTrue trivial

theorem Event.isShown_iff {event : Event} {v : Verbosity} :
    event.isShown v = true ↔ event.StaysAt v := by
  cases event with
  | record r => exact Verbosity.shows_iff
  | report text => exact ⟨fun _ => trivial, fun _ => rfl⟩
  | failure f => exact ⟨fun _ => trivial, fun _ => rfl⟩

/-- What is shown of a list of events at a verbosity, in order. -/
def shownAt (v : Verbosity) (events : List Event) : List Event :=
  events.filter fun event => decide (event.StaysAt v)

variable {v w : Verbosity} {events : List Event}

theorem filter_isShown : events.filter (·.isShown v) = shownAt v events := by
  refine List.filter_congr fun event _ => ?_
  rw [Bool.eq_iff_iff, Event.isShown_iff, decide_eq_true_eq]

/-- At the strictest verbosity no record is shown. -/
theorem record_not_mem_shownAt_off (r : LogRecord) : Event.record r ∉ shownAt .off events := by
  intro hr
  have hstays := of_decide_eq_true (List.mem_filter.mp hr).2
  exact absurd hstays List.not_mem_nil

/-- At the finest verbosity everything is shown. -/
theorem shownAt_trace : shownAt (.atLeast .trace) events = events := by
  refine List.filter_eq_self.mpr fun event _ => decide_eq_true ?_
  cases event with
  | record r =>
      show r.severity ∈ Verbosity.severities (.atLeast .trace)
      cases r.severity <;> decide
  | report text => trivial
  | failure f => trivial

/-- **A stricter verbosity only leaves out more.** -/
theorem shownAt_sublist (h : v.severities ⊆ w.severities) :
    (shownAt v events).Sublist (shownAt w events) := by
  refine List.monotone_filter_right events fun event hevent => ?_
  have hstays := of_decide_eq_true hevent
  refine decide_eq_true ?_
  cases event with
  | record r => exact h hstays
  | report text => trivial
  | failure f => trivial

end CommandLine

end TheoryScript
