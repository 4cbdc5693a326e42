/-
Cutting off the cause of a failure.

A cause stands behind its mark, and an error output is cut before the first such mark.  The
mark cannot begin inside itself, so a mark that follows a text is found where it was put or
earlier, and what stands behind it has no say (`cutBefore_mark`).  So the lines that are looked
at are the same whatever is said about causes, and the answer without any stands for all.
-/
import TheoryScript.CommandLine.Response

namespace TheoryScript

namespace Text

/-! ### Marks -/

/-- A mark that cannot begin inside itself. -/
def Unbordered (mark : List Char) : Prop :=
  mark ≠ [] ∧ ∀ k < mark.length, 0 < k → ¬(mark.drop k <+: mark)

section

variable {mark : List Char}

/-- A mark that starts in front of another one is complete in front of it. -/
theorem prefix_of_prefix_append (hmark : Unbordered mark) {before rest : List Char}
    (hne : before ≠ []) (h : mark <+: before ++ (mark ++ rest)) : mark <+: before := by
  by_cases hlong : mark.length ≤ before.length
  · exact List.prefix_of_prefix_length_le h (List.prefix_append _ _) hlong
  · -- the part of the mark that would reach over starts the other mark
    have hlt : before.length < mark.length := Nat.lt_of_not_le hlong
    have hbefore : before <+: mark :=
      List.prefix_of_prefix_length_le (List.prefix_append _ _) h (Nat.le_of_lt hlt)
    obtain ⟨overlap, rfl⟩ := hbefore
    have hover : overlap <+: (before ++ overlap) ++ rest :=
      (List.prefix_append_right_inj before).mp h
    have hlength : overlap.length ≤ (before ++ overlap).length := by simp
    have hborder : (before ++ overlap).drop before.length <+: before ++ overlap := by
      rw [List.drop_left]
      exact List.prefix_of_prefix_length_le hover (List.prefix_append _ _) hlength
    exact absurd hborder (hmark.2 _ hlt (List.length_pos_iff.mpr hne))

/-- **What stands behind a mark has no say.** -/
theorem cutBefore_mark (hmark : Unbordered mark) (before rest : List Char) :
    cutBefore mark (before ++ (mark ++ rest)) = cutBefore mark before := by
  induction before with
  | nil =>
      obtain ⟨c, more, rfl⟩ := List.exists_cons_of_ne_nil hmark.1
      have hprefix : (c :: more).isPrefixOf (c :: (more ++ rest)) = true :=
        List.isPrefixOf_iff_prefix.mpr (List.prefix_append (c :: more) rest)
      show cutBefore (c :: more) (c :: (more ++ rest)) = []
      simp only [cutBefore, hprefix, if_true]
  | cons c before ih =>
      have hsame : mark <+: c :: before ++ (mark ++ rest) ↔ mark <+: c :: before :=
        ⟨prefix_of_prefix_append hmark (by simp), fun h => h.trans (List.prefix_append _ _)⟩
      rw [List.cons_append] at hsame ⊢
      rw [cutBefore, cutBefore, ih]
      by_cases h : mark <+: c :: before
      · rw [if_pos (List.isPrefixOf_iff_prefix.mpr h),
          if_pos (List.isPrefixOf_iff_prefix.mpr (hsame.mpr h))]
      · rw [if_neg (mt List.isPrefixOf_iff_prefix.mp h),
          if_neg (mt (fun hc => hsame.mp (List.isPrefixOf_iff_prefix.mp hc)) h)]

/-- A character that does not end the mark cannot complete it. -/
theorem cutBefore_concat {d : Char} (hd : mark.getLast? ≠ some d) (before : List Char) :
    cutBefore mark (before ++ [d]) = cutBefore mark before ∨
      cutBefore mark (before ++ [d]) = cutBefore mark before ++ [d] := by
  induction before with
  | nil =>
      rw [List.nil_append, cutBefore, cutBefore, List.nil_append]
      by_cases h : mark.isPrefixOf [d] = true
      · exact Or.inl (if_pos h)
      · exact Or.inr (if_neg h)
  | cons c before ih =>
      have hsame : mark <+: c :: (before ++ [d]) ↔ mark <+: c :: before := by
        rw [← List.cons_append, List.prefix_concat_iff]
        refine ⟨fun h => h.resolve_left fun hwhole => hd ?_, Or.inr⟩
        rw [hwhole, List.getLast?_concat]
      rw [List.cons_append, cutBefore, cutBefore]
      by_cases h : mark <+: c :: before
      · rw [if_pos (List.isPrefixOf_iff_prefix.mpr h),
          if_pos (List.isPrefixOf_iff_prefix.mpr (hsame.mpr h))]
        exact Or.inl rfl
      · rw [if_neg (mt List.isPrefixOf_iff_prefix.mp h),
          if_neg (mt (fun hc => hsame.mp (List.isPrefixOf_iff_prefix.mp hc)) h), List.cons_append]
        exact ih.imp (congrArg _) (congrArg _)

theorem trimEnd_concat {d : Char} (hd : isBlank d = true) (cs : List Char) :
    trimEnd (cs ++ [d]) = trimEnd cs := by
  rw [trimEnd, List.reverse_append, List.reverse_singleton, List.singleton_append,
    List.dropWhile_cons_of_pos hd, trimEnd]

end

end Text

namespace CommandLine

/-! ### Error outputs -/

/-- What is looked at of a text with a cause at its end is what stands before the cause. -/
theorem errorLines_cause (before cause : String) :
    errorLines (before ++ causeMark ++ cause) = errorLines (before ++ "\n") := by
  have hmark : Text.Unbordered causeMark.toList := by
    refine ⟨by decide, ?_⟩
    show ∀ k < 12, 0 < k → ¬(causeMark.toList.drop k <+: causeMark.toList)
    decide
  have hend : causeMark.toList.getLast? ≠ some '\n' := by decide
  have hfeed : "\n".toList = ['\n'] := rfl
  rw [errorLines, errorLines, String.toList_append, String.toList_append, List.append_assoc,
    Text.cutBefore_mark hmark, String.toList_append, hfeed]
  rcases Text.cutBefore_concat hend before.toList with h | h
  · rw [h]
  · rw [h, Text.trimEnd_concat (by decide)]

/-- Nothing in a list of events is a failure. -/
def NoFailure (events : List Event) : Prop :=
  ∀ f, Event.failure f ∉ events

/-- A failure comes last, if there is one. -/
def FailsLast (events : List Event) : Prop :=
  NoFailure events ∨ ∃ before f, events = before ++ [.failure f] ∧ NoFailure before

theorem FailsLast.filter_isShown {events : List Event} (h : FailsLast events) (v : Verbosity) :
    FailsLast (events.filter (·.isShown v)) := by
  have hnone : ∀ {es : List Event}, NoFailure es → NoFailure (es.filter (·.isShown v)) :=
    fun hes f hf => hes f (List.mem_filter.mp hf).1
  rcases h with h | ⟨before, f, rfl, h⟩
  · exact Or.inl (hnone h)
  · refine Or.inr ⟨before.filter (·.isShown v), f, ?_, hnone h⟩
    rw [List.filter_append]
    rfl

/-- Events without a failure may come first. -/
theorem FailsLast.behind {first events : List Event} (hfirst : NoFailure first)
    (h : FailsLast events) : FailsLast (first ++ events) := by
  have hboth : ∀ {es : List Event}, NoFailure es → NoFailure (first ++ es) := by
    intro es hes f hf
    exact (List.mem_append.mp hf).elim (hfirst f) (hes f)
  rcases h with h | ⟨before, f, rfl, h⟩
  · exact Or.inl (hboth h)
  · exact Or.inr ⟨first ++ before, f, (List.append_assoc _ _ _).symm, hboth h⟩

theorem failsLast_closingEvents (f : Fragment) (o : Options) (total : Nat)
    (skipped : Diagnostics) : FailsLast (closingEvents f o total skipped) := by
  have hnone : FailsLast [] := Or.inl fun _ h => by cases h
  unfold closingEvents
  by_cases hempty : skipped.isEmpty = true
  · rw [if_pos hempty]
    exact hnone
  · rw [if_neg hempty]
    refine FailsLast.behind (fun _ h => by simp [encodeRecord] at h) ?_
    by_cases hfail : o.failOnError = true
    · rw [if_pos hfail]
      exact Or.inr ⟨[], _, rfl, fun _ h => by cases h⟩
    · rw [if_neg hfail]
      exact hnone

/-- **A failure is the last thing that a run says.** -/
theorem failsLast_run (readFile : String → Option String) (level : Option String)
    (a : Arguments) : FailsLast (run readFile level a).events := by
  have hversion : NoFailure [versionRecord] := fun _ h => by simp [versionRecord] at h
  unfold run
  cases loadOptions readFile a with
  | error failure => exact Or.inr ⟨[], failure, rfl, fun _ h => by cases h⟩
  | ok o =>
      cases hbatch : loadBatch readFile a o with
      | error failure =>
          simp only [hbatch]
          exact Or.inr ⟨[versionRecord], failure, rfl, hversion⟩
      | ok batch =>
          simp only [hbatch]
          refine FailsLast.behind ?_ (failsLast_closingEvents _ _ _ _)
          intro f hf
          simp [versionRecord, encodeRecord] at hf

/-! ### Answers -/

section

variable {explain : Explanation}

theorem text_eq_of_noFailure {events : List Event} (h : NoFailure events) :
    events.map (Event.text explain) = events.map (Event.text unexplained) := by
  refine List.map_congr_left fun event hevent => ?_
  cases event with
  | record r => rfl
  | report text => rfl
  | failure f => exact absurd hevent (h f)

/-- What is looked at of events that end with a failure does not depend on its cause. -/
theorem errorLines_join {events : List Event} (h : FailsLast events) :
    errorLines (String.join (events.map (Event.text explain)))
      = errorLines (String.join (events.map (Event.text unexplained))) := by
  rcases h with h | ⟨before, f, rfl, h⟩
  · rw [text_eq_of_noFailure h]
  · have hjoin : ∀ explain : Explanation,
        String.join ((before ++ [Event.failure f]).map (Event.text explain))
          = String.join (before.map (Event.text unexplained)) ++ f.text explain ++ "\n" := by
      intro explain
      simp [String.join_append, text_eq_of_noFailure h, Event.text, String.append_assoc]
    rw [hjoin, hjoin]
    generalize String.join (before.map (Event.text unexplained)) = shown
    cases hcause : explain f with
    | none =>
        have hsame : f.text explain = f.text unexplained := by rw [Failure.text, hcause]; rfl
        rw [hsame]
    | some cause =>
        have htext : shown ++ f.text explain ++ "\n"
            = shown ++ f.message ++ causeMark ++ ("\n" ++ causeLines cause ++ "\n") := by
          simp [Failure.text, hcause, String.append_assoc]
        rw [htext, errorLines_cause]
        rfl

/--
**Nothing but the cause depends on what is said about causes.**  Whatever that is, a command
exits with the same code and prints the same, and the lines of its error output that are looked
at are the same, because they stop before a cause.
-/
theorem respondWith_alike (explain : Explanation) (readFile : String → Option String)
    (level : Option String) (arguments : List String) :
    let whole := respondWith explain readFile level arguments
    let cut := respond readFile level arguments
    whole.exitCode = cut.exitCode ∧ whole.output = cut.output ∧
      whole.errorOutput.map errorLines = cut.errorOutput.map errorLines := by
  intro whole cut
  cases hrequest : Request.ofArguments arguments with
  | encode a =>
      have hshown := (failsLast_run readFile level a).filter_isShown (run readFile level a).verbosity
      simp only [whole, cut, respond, respondWith, hrequest, Option.map_some]
      exact ⟨trivial, trivial, congrArg some (errorLines_join hshown)⟩
  | version => simp only [whole, cut, respond, respondWith, hrequest, and_self]
  | help => simp only [whole, cut, respond, respondWith, hrequest, and_self]
  | misuse => simp only [whole, cut, respond, respondWith, hrequest, and_self]

end

end CommandLine

end TheoryScript
