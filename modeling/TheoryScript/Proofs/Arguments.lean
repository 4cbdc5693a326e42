/-
Asking for detailed progress changes nothing else that is asked for.

Arguments are read one after the other, and what they have set so far goes along.  With
detailed progress asked for in front, every later argument takes reading to the same place
(`Follows`), unless it asks for detailed progress again, which is refused.  So a command
line that asks for an encoding without detailed progress asks for the same encoding with it
once the switch is put in front.
-/
import TheoryScript.CommandLine.Request

namespace TheoryScript.CommandLine

/-- The arguments, with or without detailed progress asked for. -/
def Arguments.withVerbose (verbose : Bool) (a : Arguments) : Arguments :=
  { a with verbose }

/-- The arguments read so far, with detailed progress asked for. -/
def Seen.detailed (seen : Seen) : Seen :=
  { seen with verbose := true }

/--
Where reading goes once detailed progress has been asked for: to the same place as without,
provided that the argument does not ask for it again.  Where reading ends, no encoding is
asked for.
-/
def Next.Follows (seen : Seen) (detailed : Next) : Next → Prop
  | .proceed after =>
      after.verbose = false → seen.verbose = false ∧ detailed = .proceed after.detailed
  | .wantValue setting after =>
      after.verbose = false → seen.verbose = false ∧ detailed = .wantValue setting after.detailed
  | .stop request => ∀ a, request ≠ .encode a

/-- Reading follows step by step. -/
theorem Next.Follows.trans {seen after : Seen} {detailed carried next : Next}
    (h : Next.Follows after carried next)
    (hstep : after.verbose = false → seen.verbose = false ∧ detailed = carried) :
    Next.Follows seen detailed next := by
  cases next with
  | proceed last =>
      intro hlast
      obtain ⟨hafter, hcarried⟩ := h hlast
      obtain ⟨hseen, hdetailed⟩ := hstep hafter
      exact ⟨hseen, hdetailed.trans hcarried⟩
  | wantValue setting last =>
      intro hlast
      obtain ⟨hafter, hcarried⟩ := h hlast
      obtain ⟨hseen, hdetailed⟩ := hstep hafter
      exact ⟨hseen, hdetailed.trans hcarried⟩
  | stop request => exact h

namespace Seen

variable {seen : Seen}

/-! ### Single arguments -/

theorem follows_misuse {detailed : Next} : Next.Follows seen detailed (.stop .misuse) :=
  fun _ => Request.noConfusion

/-- An argument that sets something else, unless it is refused. -/
theorem follows_ite {c : Prop} [Decidable c] {after : Seen} (h : after.verbose = seen.verbose) :
    Next.Follows seen (if c then .stop .misuse else .proceed after.detailed)
      (if c then .stop .misuse else .proceed after) := by
  by_cases hc : c
  · rw [if_pos hc, if_pos hc]
    exact follows_misuse
  · rw [if_neg hc, if_neg hc]
    exact fun hverbose => ⟨h ▸ hverbose, rfl⟩

theorem follows_addInput (seen : Seen) (path : String) :
    Next.Follows seen (seen.detailed.addInput path) (seen.addInput path) :=
  follows_ite rfl

theorem follows_addSwitch (seen : Seen) (s : Switch) :
    Next.Follows seen (seen.detailed.addSwitch s) (seen.addSwitch s) := by
  cases s with
  | preamble => exact follows_ite rfl
  | failOnError => exact follows_ite rfl
  | verbose =>
      show Next.Follows _ _ (if seen.verbose then _ else _)
      by_cases hverbose : seen.verbose = true
      · rw [if_pos hverbose]
        exact follows_misuse
      · rw [if_neg hverbose]
        exact fun hafter => absurd hafter (by simp)
  | version => exact fun _ => Request.noConfusion
  | help => exact fun _ => Request.noConfusion

theorem follows_addSetting (seen : Seen) (setting : Setting) (value : String) :
    Next.Follows seen (seen.detailed.addSetting setting value) (seen.addSetting setting value) := by
  cases setting with
  | config => exact follows_ite rfl
  | logic => exact follows_ite rfl

theorem follows_wantValue (setting : Setting) :
    Next.Follows seen (.wantValue setting seen.detailed) (.wantValue setting seen) :=
  fun hverbose => ⟨hverbose, rfl⟩

theorem follows_addLong (text : List Char) :
    Next.Follows seen (seen.detailed.addLong text) (seen.addLong text) := by
  unfold addLong
  cases hoption : longOption? (String.ofList (text.takeWhile (· != '='))) with
  | none =>
      simp only [hoption]
      exact follows_misuse
  | some option =>
      cases hvalue : text.dropWhile (· != '=') with
      | nil =>
          simp only [hoption]
          cases option with
          | inl s => exact follows_addSwitch seen s
          | inr setting => exact follows_wantValue setting
      | cons mark value =>
          simp only [hoption]
          cases option with
          | inl s => exact follows_misuse
          | inr setting => exact follows_addSetting seen setting _

theorem follows_addShort (letters : List Char) :
    Next.Follows seen (seen.detailed.addShort letters) (seen.addShort letters) := by
  induction letters generalizing seen with
  | nil => exact fun hverbose => ⟨hverbose, rfl⟩
  | cons letter rest ih =>
      cases hoption : shortOption? letter with
      | none =>
          simp only [addShort, hoption]
          exact follows_misuse
      | some option =>
          cases option with
          | inl s =>
              have hswitch := follows_addSwitch seen s
              simp only [addShort, hoption]
              cases hnext : seen.addSwitch s with
              | proceed after =>
                  rw [hnext] at hswitch
                  refine Next.Follows.trans ih fun hafter => ?_
                  obtain ⟨hseen, hdetailed⟩ := hswitch hafter
                  exact ⟨hseen, by rw [hdetailed]⟩
              | wantValue setting after =>
                  rw [hnext] at hswitch
                  intro hafter
                  obtain ⟨hseen, hdetailed⟩ := hswitch hafter
                  exact ⟨hseen, by rw [hdetailed]⟩
              | stop request =>
                  rw [hnext] at hswitch
                  exact hswitch
          | inr setting =>
              simp only [addShort, hoption]
              split
              · exact follows_wantValue setting
              · exact follows_addSetting seen setting _
              · exact follows_addSetting seen setting _

theorem follows_add (seen : Seen) (argument : String) :
    Next.Follows seen (seen.detailed.add argument) (seen.add argument) := by
  unfold add
  split
  · exact follows_addLong _
  · exact follows_addShort _
  · exact follows_addInput seen _

/-! ### All arguments -/

variable {a : Arguments}

theorem finish_detailed (h : seen.finish = .encode a) (hverbose : a.verbose = false) :
    seen.verbose = false ∧ seen.detailed.finish = .encode (a.withVerbose true) := by
  unfold finish at h ⊢
  cases hinput : seen.input with
  | none => simp [hinput] at h
  | some input =>
      simp only [hinput, Request.encode.injEq] at h
      subst h
      have hdetailed : seen.detailed.input = some input := hinput
      simp only [hdetailed]
      exact ⟨hverbose, rfl⟩

theorem readInputs_detailed {paths : List String} (h : seen.readInputs paths = .encode a)
    (hverbose : a.verbose = false) :
    seen.verbose = false ∧ seen.detailed.readInputs paths = .encode (a.withVerbose true) := by
  induction paths generalizing seen with
  | nil => exact finish_detailed h hverbose
  | cons path rest ih =>
      have hfollows := follows_addInput seen path
      rw [readInputs] at h ⊢
      cases hnext : seen.addInput path with
      | proceed after =>
          rw [hnext] at h hfollows
          obtain ⟨hafter, hrest⟩ := ih h
          obtain ⟨hseen, hdetailed⟩ := hfollows hafter
          exact ⟨hseen, by rw [hdetailed]; exact hrest⟩
      | wantValue setting after =>
          rw [hnext] at h
          cases h
      | stop request =>
          rw [hnext] at h hfollows
          exact absurd h (hfollows a)

/-- **With detailed progress asked for before, the same encoding is asked for with it.** -/
theorem read_detailed {arguments : List String} (h : seen.read arguments = .encode a)
    (hverbose : a.verbose = false) :
    seen.verbose = false ∧ seen.detailed.read arguments = .encode (a.withVerbose true) := by
  fun_induction read seen arguments with
  | case1 seen => exact finish_detailed h hverbose
  | case2 seen rest => exact readInputs_detailed h hverbose
  | case3 seen argument rest hne after hnext ih =>
      have hfollows := follows_add seen argument
      rw [hnext] at hfollows
      obtain ⟨hafter, hrest⟩ := ih h
      obtain ⟨hseen, hdetailed⟩ := hfollows hafter
      refine ⟨hseen, ?_⟩
      rw [read, hdetailed]
      · exact hrest
      · exact hne
  | case4 seen argument rest hne request hnext =>
      have hfollows := follows_add seen argument
      rw [hnext] at hfollows
      exact absurd h (hfollows a)
  | case5 seen argument hne setting after hnext => cases h
  | case6 seen argument hne setting after hnext value others hoption => cases h
  | case7 seen argument hne setting after hnext value others hvalue last hset ih =>
      have hfollows := follows_add seen argument
      rw [hnext] at hfollows
      have hfollowsSet := follows_addSetting after setting value
      rw [hset] at hfollowsSet
      obtain ⟨hlast, hrest⟩ := ih h
      obtain ⟨hafter, hdetailedSet⟩ := hfollowsSet hlast
      obtain ⟨hseen, hdetailed⟩ := hfollows hafter
      refine ⟨hseen, ?_⟩
      rw [read, hdetailed]
      · simp only [hvalue, hdetailedSet]
        exact hrest
      · exact hne
  | case8 seen argument hne setting after hnext value others hvalue last rest hset => cases h
  | case9 seen argument hne setting after hnext value others hvalue request hset =>
      have hfollowsSet := follows_addSetting after setting value
      rw [hset] at hfollowsSet
      exact absurd h (hfollowsSet a)

end Seen

/--
**Putting `--verbose` in front asks for detailed progress and changes nothing else**, where
an encoding is asked for without it.
-/
theorem ofArguments_verbose {arguments : List String} {a : Arguments}
    (h : Request.ofArguments arguments = .encode a) (hverbose : a.verbose = false) :
    Request.ofArguments ("--verbose" :: arguments) = .encode (a.withVerbose true) :=
  (Seen.read_detailed h hverbose).2

end TheoryScript.CommandLine
