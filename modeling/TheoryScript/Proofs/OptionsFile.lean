/-
What an options file describes.

An options file describes the options that hold the values at all its keys, and that are
the defaults where it has no key (`Overwrites`).  Reading a file gives exactly these
options.  Taking in one key sets the option of that key and leaves the others
(`add_eq_ok_iff`); as no key comes twice, no later key undoes that, and the run over all
keys follows by induction (`foldlM_add_eq_ok_iff`).
-/
import TheoryScript.OptionsFile
import TheoryScript.Proofs.Toml.Keys

namespace TheoryScript

theorem bind_eq_ok_iff {ε α β : Type} {result : Except ε α} {f : α → Except ε β} {b : β} :
    result >>= f = .ok b ↔ ∃ a, result = .ok a ∧ f a = .ok b := by
  cases result with
  | error error => simp [bind, Except.bind]
  | ok a => simp [bind, Except.bind]

/-! ### Single values -/

theorem Toml.Value.asString_eq_ok_iff {v : Value} {text : String} :
    v.asString = .ok text ↔ v = .string text := by
  cases v <;> simp [asString]

theorem Toml.Value.asBoolean_eq_ok_iff {v : Value} {value : Bool} :
    v.asBoolean = .ok value ↔ v = .boolean value := by
  cases v <;> simp [asBoolean]

theorem Verbosity.ofName?_eq_some_iff {word : String} {v : Verbosity} :
    ofName? word = some v ↔ v.name = word.toUpper := by
  constructor
  · intro h
    simpa using List.find?_some h
  · intro h
    rw [ofName?, ← h]
    cases v with
    | off => rfl
    | atLeast severity => cases severity <;> rfl

namespace OptionsFile

open Toml

/-- A value that is the name of a verbosity, in any case, or a table with the name as its key. -/
def Names (v : Value) (level : Verbosity) : Prop :=
  ∃ name : String, (v = .string name ∨ v = .table [(name, .table [])]) ∧ level.name = name.toUpper

theorem verbosityOfName_eq_ok_iff {name : String} {level : Verbosity} :
    verbosityOfName name = .ok level ↔ level.name = name.toUpper := by
  rw [← Verbosity.ofName?_eq_some_iff, verbosityOfName]
  cases Verbosity.ofName? name with
  | none => simp
  | some found => simp

theorem verbosity_eq_ok_iff {v : Value} {level : Verbosity} :
    verbosity v = .ok level ↔ Names v level := by
  constructor
  · intro h
    cases v with
    | string name => exact ⟨name, Or.inl rfl, verbosityOfName_eq_ok_iff.mp h⟩
    | table entries =>
        match entries, h with
        | [(name, inner)], h =>
            obtain ⟨found, hname, h⟩ := bind_eq_ok_iff.mp h
            match inner, h with
            | .table [], h =>
                cases h
                exact ⟨name, Or.inr rfl, verbosityOfName_eq_ok_iff.mp hname⟩
    | _ => simp [verbosity] at h
  · rintro ⟨name, rfl | rfl, hname⟩
    · exact verbosityOfName_eq_ok_iff.mpr hname
    · exact bind_eq_ok_iff.mpr ⟨level, verbosityOfName_eq_ok_iff.mpr hname, rfl⟩

/-! ### Single keys -/

/-- Options hold what a value at a key stands for; nothing holds what an unknown key has. -/
def Holds (o : Options) (key : String) (v : Value) : Prop :=
  match key with
  | "logic" => v = .string o.logic
  | "emit_preamble" => v = .boolean o.emitPreamble
  | "fail_on_error" => v = .boolean o.failOnError
  | "verbosity_level" => Names v o.verbosity
  | _ => False

/-- Two sets of options have the same option for a key. -/
def Agree (o p : Options) (key : String) : Prop :=
  match key with
  | "logic" => o.logic = p.logic
  | "emit_preamble" => o.emitPreamble = p.emitPreamble
  | "fail_on_error" => o.failOnError = p.failOnError
  | "verbosity_level" => o.verbosity = p.verbosity
  | _ => True

variable {o p q changed : Options} {key : String} {v : Value}

theorem Agree.refl (o : Options) (key : String) : Agree o o key := by
  unfold Agree
  split <;> trivial

theorem Agree.symm (h : Agree o p key) : Agree p o key := by
  unfold Agree at h ⊢
  split <;> simp_all

theorem Agree.trans (hop : Agree o p key) (hpq : Agree p q key) : Agree o q key := by
  unfold Agree at hop hpq ⊢
  split <;> simp_all

/-- A value stands for one option only. -/
theorem Holds.agree (ho : Holds o key v) (hp : Holds p key v) : Agree o p key := by
  unfold Agree
  split
  · simpa using ho.symm.trans hp
  · simpa using ho.symm.trans hp
  · simpa using ho.symm.trans hp
  · have hsame : Except.ok o.verbosity = Except.ok p.verbosity :=
      (verbosity_eq_ok_iff.mpr ho).symm.trans (verbosity_eq_ok_iff.mpr hp)
    simpa using hsame
  · trivial

theorem Holds.of_agree (ho : Holds o key v) (h : Agree o p key) : Holds p key v := by
  unfold Holds at ho ⊢
  split <;> simp_all [Agree]

theorem eq_of_agree (h : ∀ key ∈ fileKeys, Agree o p key) : o = p := by
  simp only [fileKeys, List.forall_mem_cons] at h
  obtain ⟨hlogic, hemit, hfail, hverbosity, -⟩ := h
  cases o
  cases p
  simp_all [Agree]

/-- A value that some options hold can be taken in. -/
theorem Holds.exists_add (h : Holds p key v) (o : Options) :
    ∃ changed, add o (key, v) = .ok changed := by
  unfold Holds at h
  split at h
  · exact ⟨_, bind_eq_ok_iff.mpr ⟨_, Value.asString_eq_ok_iff.mpr h, rfl⟩⟩
  · exact ⟨_, bind_eq_ok_iff.mpr ⟨_, Value.asBoolean_eq_ok_iff.mpr h, rfl⟩⟩
  · exact ⟨_, bind_eq_ok_iff.mpr ⟨_, Value.asBoolean_eq_ok_iff.mpr h, rfl⟩⟩
  · exact ⟨_, bind_eq_ok_iff.mpr ⟨_, verbosity_eq_ok_iff.mpr h, rfl⟩⟩
  · exact h.elim

theorem add_sets (h : add o (key, v) = .ok changed) :
    Holds changed key v ∧ ∀ other ∈ fileKeys, other ≠ key → Agree changed o other := by
  by_cases hkey : key ∈ fileKeys
  · simp only [fileKeys, List.mem_cons, List.not_mem_nil, or_false] at hkey
    rcases hkey with rfl | rfl | rfl | rfl
    · obtain ⟨text, htext, h⟩ := bind_eq_ok_iff.mp h
      cases h
      exact ⟨Value.asString_eq_ok_iff.mp htext, by simp [fileKeys, Agree]⟩
    · obtain ⟨value, hvalue, h⟩ := bind_eq_ok_iff.mp h
      cases h
      exact ⟨Value.asBoolean_eq_ok_iff.mp hvalue, by simp [fileKeys, Agree]⟩
    · obtain ⟨value, hvalue, h⟩ := bind_eq_ok_iff.mp h
      cases h
      exact ⟨Value.asBoolean_eq_ok_iff.mp hvalue, by simp [fileKeys, Agree]⟩
    · obtain ⟨level, hlevel, h⟩ := bind_eq_ok_iff.mp h
      cases h
      exact ⟨verbosity_eq_ok_iff.mp hlevel, by simp [fileKeys, Agree]⟩
  · simp only [fileKeys, List.mem_cons, List.not_mem_nil, or_false, not_or] at hkey
    simp [add, hkey] at h

theorem Holds.mem_fileKeys (h : Holds o key v) : key ∈ fileKeys := by
  unfold Holds at h
  split at h <;> simp_all [fileKeys]

/-- **Taking in a key sets the option that its value stands for, and no other.** -/
theorem add_eq_ok_iff :
    add o (key, v) = .ok changed ↔
      Holds changed key v ∧ ∀ other ∈ fileKeys, other ≠ key → Agree changed o other := by
  refine ⟨add_sets, ?_⟩
  rintro ⟨hheld, hothers⟩
  obtain ⟨found, hadd⟩ := hheld.exists_add o
  obtain ⟨hfound, hkept⟩ := add_sets hadd
  have hsame : found = changed := by
    refine eq_of_agree fun other hother => ?_
    by_cases hkey : other = key
    · subst hkey
      exact hfound.agree hheld
    · exact (hkept other hother hkey).trans (hothers other hother hkey).symm
  rw [← hsame, hadd]

/-! ### Whole files -/

/-- Options that hold all values of a table, and that are those of a base where it has no key. -/
structure Overwrites (table : Table) (base o : Options) : Prop where
  /-- The options hold what stands at every key of the table. -/
  present : ∀ entry ∈ table, Holds o entry.1 entry.2
  /-- Every option without a key is that of the base. -/
  absent : ∀ key ∈ fileKeys, key ∉ table.keys → Agree o base key

theorem overwrites_nil_iff {base : Options} : Overwrites [] base o ↔ base = o := by
  constructor
  · intro h
    exact eq_of_agree fun key hkey => (h.absent key hkey List.not_mem_nil).symm
  · rintro rfl
    exact ⟨fun entry hentry => absurd hentry List.not_mem_nil, fun key _ _ => Agree.refl base key⟩

theorem overwrites_cons_iff {base : Options} {table : Table} (hkey : key ∉ table.keys) :
    Overwrites ((key, v) :: table) base o ↔
      ∃ changed, add base (key, v) = .ok changed ∧ Overwrites table changed o := by
  constructor
  · intro h
    have hheld : Holds o key v := h.present _ List.mem_cons_self
    obtain ⟨changed, hadd⟩ := hheld.exists_add base
    obtain ⟨hchanged, hkept⟩ := add_eq_ok_iff.mp hadd
    refine ⟨changed, hadd, fun entry hentry => h.present entry (List.mem_cons_of_mem _ hentry),
      fun other hother habsent => ?_⟩
    by_cases hsame : other = key
    · subst hsame
      exact hheld.agree hchanged
    · have hbase : Agree o base other := h.absent other hother (by simp [hsame, habsent])
      exact hbase.trans (hkept other hother hsame).symm
  · rintro ⟨changed, hadd, h⟩
    obtain ⟨hchanged, hkept⟩ := add_eq_ok_iff.mp hadd
    have hheld : Holds o key v :=
      hchanged.of_agree (h.absent key hchanged.mem_fileKeys hkey).symm
    refine ⟨List.forall_mem_cons.mpr ⟨hheld, h.present⟩, fun other hother habsent => ?_⟩
    rw [Entries.keys_cons, List.mem_cons, not_or] at habsent
    exact (h.absent other hother habsent.2).trans (hkept other hother habsent.1)

/-- **A table is taken in exactly as it overwrites what was there before.** -/
theorem foldlM_add_eq_ok_iff {base : Options} {table : Table} (hkeys : table.keys.Nodup) :
    table.foldlM add base = .ok o ↔ Overwrites table base o := by
  induction table generalizing base with
  | nil =>
      rw [overwrites_nil_iff]
      exact ⟨Except.ok.inj, congrArg Except.ok⟩
  | cons entry rest ih =>
      obtain ⟨hkey, hrest⟩ := List.nodup_cons.mp hkeys
      rw [List.foldlM_cons, bind_eq_ok_iff, overwrites_cons_iff hkey]
      exact exists_congr fun changed => and_congr_right fun _ => ih hrest

/-- A text that is a document whose keys overwrite the defaults. -/
def Describes (text : String) (o : Options) : Prop :=
  ∃ table, parse? text = some table ∧ Overwrites table {} o

/-- **Reading an options file gives the options that it describes.** -/
theorem read_eq_ok_iff {text : String} : read text = .ok o ↔ Describes text o := by
  rw [read, Describes]
  cases hparse : parse? text with
  | none => simp
  | some table =>
      have hrun : ofTable table = .ok o ↔ Overwrites table {} o :=
        foldlM_add_eq_ok_iff (nodup_keys_of_parse? hparse)
      simp only [Option.some.injEq, exists_eq_left', ← hrun]
      cases ofTable table with
      | error error => simp [Except.mapError]
      | ok found => simp [Except.mapError]

end OptionsFile

end TheoryScript
