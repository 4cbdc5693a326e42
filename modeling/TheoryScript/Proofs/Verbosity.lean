/-
Verbosity does not interfere.

How much a run logs is asked for in three places: a level in the environment, a switch among
the arguments, and a key of the options file.  The events of a run do not depend on any of
them.  A verbosity only picks which records are shown, so two runs that differ in these
places print the same, exit alike, and show two selections from one list of events.

The argument is about options files.  A valid level changes the option of its key and no
other (`foldlM_add_withVerbosity`), so files that are alike but for their levels describe
options that are alike but for the verbosity, or are refused with the same message.  From
the options on, the verbosity is not looked at again until the events are shown.

The cause of a failure is another matter.  It is told from the text of the file at fault, and
may quote it and count its lines, so where a level is written shows in what is said about the
file it is written in.  And a level in a file that is also the statement file is a key that
statement files do not have.
-/
import Mathlib.Data.List.Forall2
import TheoryScript.Proofs.Arguments
import TheoryScript.Proofs.CommandLine
import TheoryScript.Proofs.Shown

namespace TheoryScript

/-- The options with another verbosity. -/
def Options.withVerbosity (v : Verbosity) (o : Options) : Options :=
  { o with verbosity := v }

/-! ### Options files that differ in a level -/

namespace OptionsFile

open Toml

/-- The key of the verbosity. -/
def levelKey : String := "verbosity_level"

/-- Whatever stands at the key of the verbosity names one. -/
def LevelValid (table : Table) : Prop :=
  ∀ v, (levelKey, v) ∈ table → ∃ level, Names v level

theorem levelValid_iff {table : Table} : LevelValid table ↔
    ∀ entry ∈ table, entry.1 = levelKey → (verbosity entry.2).isOk = true := by
  simp only [isOk_iff_exists, verbosity_eq_ok_iff]
  constructor
  · rintro h ⟨_, v⟩ hmem rfl
    exact h v hmem
  · intro h v hmem
    exact h _ hmem rfl

instance : DecidablePred LevelValid :=
  fun _ => decidable_of_iff' _ levelValid_iff

/-- Two texts that are documents, each with a valid level or none, and are alike otherwise. -/
def SameButLevel (text text' : String) : Prop :=
  ∃ table table', parse? text = some table ∧ parse? text' = some table' ∧
    LevelValid table ∧ LevelValid table' ∧ table.without levelKey = table'.without levelKey

variable {o : Options} {v : Verbosity} {table : Table} {text text' : String}

/-- A level is taken in without a trace among the other options. -/
theorem add_level {x : Value} {level : Verbosity} (h : Names x level) :
    add o (levelKey, x) = .ok (o.withVerbosity level) :=
  bind_eq_ok_iff.mpr ⟨level, verbosity_eq_ok_iff.mpr h, rfl⟩

/-- The other keys are taken in whatever the verbosity is. -/
theorem add_withVerbosity {key : String} (hkey : key ≠ levelKey) (x : Value) :
    add (o.withVerbosity v) (key, x) = (add o (key, x)).map (Options.withVerbosity v) := by
  unfold add
  by_cases hlogic : key = "logic"
  · simp only [hlogic, if_true]
    cases x.asString with
    | error error => rfl
    | ok text => rfl
  by_cases hemit : key = "emit_preamble"
  · simp only [hemit]
    cases x.asBoolean with
    | error error => rfl
    | ok value => rfl
  by_cases hfail : key = "fail_on_error"
  · simp only [hfail]
    cases x.asBoolean with
    | error error => rfl
    | ok value => rfl
  have hlevel : key ≠ "verbosity_level" := hkey
  simp only [hlogic, hemit, hfail, hlevel, if_false]
  rfl

/-- **A valid level changes no other option, and hides no problem with one.** -/
theorem foldlM_add_withVerbosity (h : LevelValid table) :
    (table.foldlM add o).map (Options.withVerbosity v)
      = (table.without levelKey).foldlM add (o.withVerbosity v) := by
  induction table generalizing o with
  | nil => rfl
  | cons entry rest ih =>
      obtain ⟨key, x⟩ := entry
      have hrest : LevelValid rest := fun y hy => h y (List.mem_cons_of_mem _ hy)
      rw [List.foldlM_cons]
      by_cases hkey : key = levelKey
      · subst hkey
        obtain ⟨level, hlevel⟩ := h x List.mem_cons_self
        have hwithout : Entries.without levelKey ((levelKey, x) :: rest)
            = Entries.without levelKey rest := by simp [Entries.without]
        rw [add_level hlevel, hwithout]
        exact ih hrest
      · have hwithout : Entries.without levelKey ((key, x) :: rest)
            = (key, x) :: Entries.without levelKey rest := by simp [Entries.without, hkey]
        rw [hwithout, List.foldlM_cons, add_withVerbosity hkey]
        cases add o (key, x) with
        | error error => rfl
        | ok changed => exact ih hrest

/-- A level holds no date. -/
theorem Names.datesExist {x : Value} {level : Verbosity} (h : Names x level) :
    x.datesExist = true := by
  obtain ⟨name, hvalue, -⟩ := h
  rcases hvalue with rfl | rfl
  · rfl
  · rfl

theorem datesExist_without (h : LevelValid table) :
    Table.datesExist (table.without levelKey) = Table.datesExist table := by
  induction table with
  | nil => rfl
  | cons entry rest ih =>
      obtain ⟨key, x⟩ := entry
      have hrest : LevelValid rest := fun y hy => h y (List.mem_cons_of_mem _ hy)
      rw [Table.datesExist, ← ih hrest]
      by_cases hkey : key = levelKey
      · subst hkey
        obtain ⟨level, hlevel⟩ := h x List.mem_cons_self
        simp [Entries.without, hlevel.datesExist]
      · simp [Entries.without, hkey, Table.datesExist]

/-- What a text describes apart from the verbosity is read off its other keys. -/
theorem read_withVerbosity (hparse : parse? text = some table) (h : LevelValid table) :
    (read text).map (Options.withVerbosity v)
      = ((table.without levelKey).foldlM add (({} : Options).withVerbosity v)).mapError
          (.ofTable (table.without levelKey)) := by
  have herror : ReadError.ofTable (table.without levelKey) = ReadError.ofTable table := by
    funext error
    rw [ReadError.ofTable, datesExist_without h, ReadError.ofTable]
  rw [read, hparse, ← foldlM_add_withVerbosity h, herror]
  show ((ofTable table).mapError _).map _ = ((ofTable table).map _).mapError _
  cases ofTable table with
  | error error => rfl
  | ok found => rfl

theorem SameButLevel.read_eq (h : SameButLevel text text') :
    (read text).map (Options.withVerbosity v) = (read text').map (Options.withVerbosity v) := by
  obtain ⟨table, table', hparse, hparse', hvalid, hvalid', hothers⟩ := h
  rw [read_withVerbosity hparse hvalid, read_withVerbosity hparse' hvalid', hothers]

/-! ### A level in a statement file -/

/-- Two tables that are alike in every place but for the levels in them. -/
def LevelReplaced (table table' : Table) : Prop :=
  List.Forall₂
    (fun entry entry' => entry.1 = entry'.1 ∧ (entry.1 = levelKey ∨ entry.2 = entry'.2))
    table table'

/-- Two texts that are documents, alike in every place but for valid levels. -/
def SameButPlacedLevel (text text' : String) : Prop :=
  ∃ table table', parse? text = some table ∧ parse? text' = some table' ∧
    LevelValid table ∧ LevelValid table' ∧ LevelReplaced table table'

theorem LevelReplaced.without_eq {table' : Table} (h : LevelReplaced table table') :
    table.without levelKey = table'.without levelKey := by
  induction h with
  | nil => rfl
  | @cons entry entry' rest rest' halike hrest ih =>
      obtain ⟨key, x⟩ := entry
      obtain ⟨key', x'⟩ := entry'
      obtain ⟨rfl, hkey | rfl⟩ := halike
      · have hlevel : key = levelKey := hkey
        simpa [Entries.without, hlevel] using ih
      · by_cases hlevel : key = levelKey
        · simpa [Entries.without, hlevel] using ih
        · simpa [Entries.without, hlevel] using ih

/-- A statement file with a level in it is refused, and not for what the level is. -/
theorem LevelReplaced.foldlM_addKey {table' : Table} (h : LevelReplaced table table')
    (statements : List Statement) :
    table.foldlM StatementFile.addKey statements
      = table'.foldlM StatementFile.addKey statements := by
  induction h generalizing statements with
  | nil => rfl
  | @cons entry entry' rest rest' halike hrest ih =>
      have hstep : StatementFile.addKey statements entry
          = StatementFile.addKey statements entry' := by
        obtain ⟨key, x⟩ := entry
        obtain ⟨key', x'⟩ := entry'
        obtain ⟨rfl, hkey | rfl⟩ := halike
        · have hlevel : key = levelKey := hkey
          subst hlevel
          rfl
        · rfl
      rw [List.foldlM_cons, List.foldlM_cons, hstep]
      cases StatementFile.addKey statements entry' with
      | error error => rfl
      | ok found => exact ih found

theorem SameButPlacedLevel.readStatements_eq (h : SameButPlacedLevel text text') :
    StatementFile.read text = StatementFile.read text' := by
  obtain ⟨table, table', hparse, hparse', hvalid, hvalid', hreplaced⟩ := h
  have hstatements : StatementFile.ofTable table = StatementFile.ofTable table' :=
    hreplaced.foldlM_addKey []
  have herror : ReadError.ofTable table = ReadError.ofTable table' := by
    funext error
    rw [ReadError.ofTable, ← datesExist_without hvalid, hreplaced.without_eq,
      datesExist_without hvalid', ReadError.ofTable]
  rw [StatementFile.read, StatementFile.read, hparse, hparse']
  show (StatementFile.ofTable table).mapError _ = (StatementFile.ofTable table').mapError _
  rw [hstatements, herror]

end OptionsFile

namespace CommandLine

/-! ### Commands that differ in how much they log -/

/-- Two requests that are alike but for whether detailed progress is asked for. -/
inductive Request.SameButVerbose : Request → Request → Prop
  | encode (a : Arguments) (verbose : Bool) :
      SameButVerbose (.encode a) (.encode (a.withVerbose verbose))
  | same (r : Request) : SameButVerbose r r

/-- The switch for detailed progress may be put in front of a command without it. -/
theorem Request.sameButVerbose_switch {arguments : List String} {a : Arguments}
    (h : Request.ofArguments arguments = .encode a) (hverbose : a.verbose = false) :
    (Request.ofArguments arguments).SameButVerbose
      (Request.ofArguments ("--verbose" :: arguments)) := by
  rw [h, ofArguments_verbose h hverbose]
  exact .encode a true

/-- Requests that are alike ask for the same encoding, or for the same answer without one. -/
theorem Request.SameButVerbose.encode_or_same {r r' : Request} (h : r.SameButVerbose r') :
    (∃ a verbose, r = .encode a ∧ r' = .encode (a.withVerbose verbose)) ∨
      r = r' ∧ ∀ a, r ≠ .encode a := by
  cases h with
  | encode a verbose => exact Or.inl ⟨a, verbose, rfl, rfl⟩
  | same =>
      by_cases hencode : ∃ a, r = .encode a
      · obtain ⟨a, rfl⟩ := hencode
        exact Or.inl ⟨a, a.verbose, rfl, rfl⟩
      · exact Or.inr ⟨rfl, not_exists.mp hencode⟩

/--
The files of two commands are alike but for a valid level in the options file.  A level that
is added to the options file or taken out must leave the statement file what it is; where
both are one file, a level may still be replaced.
-/
structure FilesAlike (a : Arguments) (readFile readFile' : String → Option String) : Prop where
  /-- The options file differs in its level at most. -/
  options : ∀ path, a.config = some path → readFile path = readFile' path ∨
    ∃ text text', readFile path = some text ∧ readFile' path = some text' ∧
      OptionsFile.SameButLevel text text'
  /-- The statement file is the same, unless it is the options file with its level replaced. -/
  statements : readFile a.input = readFile' a.input ∨
    ∃ text text', readFile a.input = some text ∧ readFile' a.input = some text' ∧
      OptionsFile.SameButPlacedLevel text text'

/-- A run, with another selection of its records. -/
def Run.withVerbosity (v : Verbosity) (r : Run) : Run :=
  { r with verbosity := v }

section

variable {readFile readFile' : String → Option String} {level level' : Option String}
  {a : Arguments} {o o' : Options} {v : Verbosity}

/-- A file describes the options of a run, apart from the verbosity, by all but its level. -/
theorem loadOptions_of_file {path text : String} (hconfig : a.config = some path)
    (hfile : readFile path = some text) :
    (loadOptions readFile a).map (Options.withVerbosity v)
      = (((OptionsFile.read text).map (Options.withVerbosity v)).mapError
          (.invalidOptions path)).map (fun file => (a.override file).withVerbosity v) := by
  simp only [loadOptions, hconfig, hfile]
  cases OptionsFile.read text with
  | error error => rfl
  | ok file => rfl

/-- The options in force are alike but for the verbosity, or cannot be loaded for one reason. -/
theorem FilesAlike.loadOptions_eq (hfiles : FilesAlike a readFile readFile') (verbose : Bool) :
    (loadOptions readFile a).map (Options.withVerbosity v)
      = (loadOptions readFile' (a.withVerbose verbose)).map (Options.withVerbosity v) := by
  cases hconfig : a.config with
  | none =>
      have hconfig' : (a.withVerbose verbose).config = none := hconfig
      simp only [loadOptions, hconfig, hconfig']
      rfl
  | some path =>
      have hconfig' : (a.withVerbose verbose).config = some path := hconfig
      rcases hfiles.options path hconfig with hsame | ⟨text, text', hread, hread', halike⟩
      · cases hread : readFile path with
        | none =>
            have hread' : readFile' path = none := hsame ▸ hread
            simp only [loadOptions, hconfig, hconfig', hread, hread']
        | some text =>
            have hread' : readFile' path = some text := hsame ▸ hread
            rw [loadOptions_of_file hconfig hread,
              loadOptions_of_file hconfig' hread']
            rfl
      · rw [loadOptions_of_file hconfig hread,
          loadOptions_of_file hconfig' hread', halike.read_eq]
        rfl

/-- The fragment and the statements do not depend on the verbosity. -/
theorem FilesAlike.loadBatch_eq (hfiles : FilesAlike a readFile readFile') (verbose : Bool)
    (hoptions : o.withVerbosity v = o'.withVerbosity v) :
    loadBatch readFile a o = loadBatch readFile' (a.withVerbose verbose) o' := by
  have hlogic : (o.withVerbosity v).logic = (o'.withVerbosity v).logic := by rw [hoptions]
  change o.logic = o'.logic at hlogic
  have hinput : (a.withVerbose verbose).input = a.input := rfl
  simp only [loadBatch, hlogic, hinput]
  cases Fragment.ofName? o'.logic with
  | none => rfl
  | some f =>
      rcases hfiles.statements with hsame | ⟨text, text', hread, hread', halike⟩
      · simp only [hsame]
      · simp only [hread, hread', halike.readStatements_eq]

/-- A batch is encoded without a look at the verbosity. -/
theorem encodeBatch_withVerbosity (f : Fragment) (u w : Verbosity) (statements : List Statement)
    (hoptions : o.withVerbosity v = o'.withVerbosity v) :
    (encodeBatch f o u statements).withVerbosity v
      = (encodeBatch f o' w statements).withVerbosity v := by
  have hrun : ∀ (o : Options) u, (encodeBatch f o u statements).withVerbosity v
      = encodeBatch f (o.withVerbosity v) v statements := fun _ _ => rfl
  rw [hrun, hrun, hoptions]

/-- **Two runs that differ in how much they log differ in which records they select only.** -/
theorem FilesAlike.run_eq (hfiles : FilesAlike a readFile readFile') (verbose : Bool) :
    (run readFile level a).withVerbosity v
      = (run readFile' level' (a.withVerbose verbose)).withVerbosity v := by
  have hoptions := hfiles.loadOptions_eq (v := v) verbose
  unfold run
  cases hload : loadOptions readFile a with
  | error failure =>
      cases hload' : loadOptions readFile' (a.withVerbose verbose) with
      | error failure' =>
          rw [hload, hload'] at hoptions
          rw [Except.error.inj hoptions]
      | ok o' =>
          rw [hload, hload'] at hoptions
          cases hoptions
  | ok o =>
      cases hload' : loadOptions readFile' (a.withVerbose verbose) with
      | error failure' =>
          rw [hload, hload'] at hoptions
          cases hoptions
      | ok o' =>
          rw [hload, hload'] at hoptions
          have halike : o.withVerbosity v = o'.withVerbosity v := Except.ok.inj hoptions
          simp only [hfiles.loadBatch_eq verbose halike]
          cases loadBatch readFile' (a.withVerbose verbose) o' with
          | error failure => rfl
          | ok batch => exact encodeBatch_withVerbosity batch.1 _ _ batch.2 halike

end

/-! ### What is shown -/

/-- The error output that shows a list of events. -/
def errorText (explain : Explanation) (events : List Event) : String :=
  String.join (events.map (Event.text explain))

/-- The verbosity in force: a level of the environment goes before that of the options. -/
def Arguments.InForce (a : Arguments) (readFile : String → Option String) (level : Option String)
    (v : Verbosity) : Prop :=
  ∀ o, a.Governs readFile o → Verbosity.Prevails level o.verbosity v

/-- What a command says at any level is selected from one list of events. -/
structure Says (explain : Explanation) (readFile : String → Option String)
    (arguments : List String) (a : Arguments) (events : List Event) : Prop where
  /-- At the finest level all of them are shown. -/
  finest : (respondWith explain readFile (some "trace") arguments).errorOutput
    = some (errorText explain events)
  /-- At any level some verbosity is in force. -/
  inForce : ∀ level, ∃ v, a.InForce readFile level v
  /-- What is shown are the records that are severe enough for it, and all that is no record. -/
  selected : ∀ level v, a.InForce readFile level v →
    (respondWith explain readFile level arguments).errorOutput
      = some (errorText explain (shownAt v events))

section

variable {explain : Explanation} {readFile : String → Option String} {arguments : List String}
  {a : Arguments}

theorem exists_inForce (level : Option String) : ∃ v, a.InForce readFile level v := by
  refine ⟨(run readFile level a).verbosity, ?_⟩
  intro o hoptions
  simp only [run, loadOptions_eq_ok_iff.mpr hoptions, Verbosity.prevails_iff]
  cases loadBatch readFile a o with
  | error failure => rfl
  | ok batch => rfl

/-- The verbosity in force selects what is shown; without options there is nothing to select. -/
theorem errorOutput_of_inForce {level : Option String} {v : Verbosity}
    (hv : a.InForce readFile level v) : (run readFile level a).errorOutput explain
      = errorText explain (shownAt v (run readFile level a).events) := by
  cases hload : loadOptions readFile a with
  | error failure =>
      simp only [run, hload]
      rfl
  | ok o =>
      have hverbosity : (run readFile level a).verbosity = v := by
        have hprevails := hv o (loadOptions_eq_ok_iff.mp hload)
        rw [Verbosity.prevails_iff.mp hprevails]
        simp only [run, hload]
        cases loadBatch readFile a o with
        | error failure => rfl
        | ok batch => rfl
      rw [Run.errorOutput, Run.shown, hverbosity, filter_isShown]
      rfl

theorem errorOutput_finest : (run readFile (some "trace") a).errorOutput explain
    = errorText explain (run readFile (some "trace") a).events := by
  have hfinest : Verbosity.Called (.atLeast .trace) "trace" :=
    Verbosity.ofNameOrRank?_eq_some_iff.mp (by decide +kernel)
  have hforce : a.InForce readFile (some "trace") (.atLeast .trace) :=
    fun _ _ => .environment rfl hfinest
  rw [errorOutput_of_inForce hforce, shownAt_trace]

/-- A command whose runs have one list of events says that list. -/
theorem says_of_events {events : List Event} (h : Request.ofArguments arguments = .encode a)
    (hevents : ∀ level, (run readFile level a).events = events) :
    Says explain readFile arguments a events := by
  refine ⟨?_, exists_inForce, fun level v hv => ?_⟩
  · rw [respondWith_eq explain h, ← hevents (some "trace")]
    exact congrArg some errorOutput_finest
  · rw [respondWith_eq explain h, ← hevents level]
    exact congrArg some (errorOutput_of_inForce hv)

end

/-! ### Causes -/

/-- A failure is about what a file holds. -/
inductive Failure.IsAbout : Failure → String → Prop
  | options (path : String) (error : Toml.ReadError) : IsAbout (.invalidOptions path error) path
  | statements (path : String) (error : Toml.ReadError) :
      IsAbout (.invalidStatements path error) path

/-- A failure is reported alike if the file that it is about, if any, is the same. -/
theorem Failure.text_congr (w : Wording) {readFile readFile' : String → Option String}
    {f : Failure} (h : ∀ path, f.IsAbout path → readFile path = readFile' path) :
    f.text (w.explain readFile) = f.text (w.explain readFile') := by
  have hcause : w.explain readFile f = w.explain readFile' f := by
    cases f with
    | invalidOptions path error =>
        exact congrArg (Option.map w.invalidOptions) (h path (.options path error))
    | invalidStatements path error =>
        exact congrArg (Option.map w.invalidStatements) (h path (.statements path error))
    | unreadableOptions path => rfl
    | unsupportedLogic name => rfl
    | unreadableStatements path => rfl
    | skippedStatements count theory => rfl
  rw [Failure.text, Failure.text, hcause]

/-! ### Two commands -/

section

variable {explain explain' : Explanation} {readFile readFile' : String → Option String}
  {arguments arguments' : List String} {a : Arguments}

/-- Commands that encode alike files print the same, exit alike, and say the same. -/
theorem FilesAlike.respond_alike {verbose : Bool} (hfiles : FilesAlike a readFile readFile')
    (h : Request.ofArguments arguments = .encode a)
    (h' : Request.ofArguments arguments' = .encode (a.withVerbose verbose)) :
    (∀ level level',
      (respondWith explain readFile level arguments).output
          = (respondWith explain' readFile' level' arguments').output ∧
        (respondWith explain readFile level arguments).exitCode
          = (respondWith explain' readFile' level' arguments').exitCode) ∧
      let events := (run readFile none a).events
      Says explain readFile arguments a events ∧
        Says explain' readFile' arguments' (a.withVerbose verbose) events := by
  have hrun : ∀ level level', (run readFile level a).withVerbosity .off
      = (run readFile' level' (a.withVerbose verbose)).withVerbosity .off :=
    fun level level' => hfiles.run_eq verbose
  constructor
  · intro level level'
    have houtput := congrArg Run.output (hrun level level')
    have hexit := congrArg Run.exitCode (hrun level level')
    rw [respondWith_eq explain h, respondWith_eq explain' h']
    exact ⟨houtput, hexit⟩
  · have hevents : ∀ level level', (run readFile level a).events
        = (run readFile' level' (a.withVerbose verbose)).events := by
      intro level level'
      have hsame := congrArg Run.events (hrun level level')
      exact hsame
    constructor
    · exact says_of_events h fun level => (hevents level none).trans (hevents none none).symm
    · exact says_of_events h' fun level => (hevents none level).symm

/-- A command that asks for no encoding looks at no file and at no level. -/
theorem respond_of_not_encode
    (hsame : Request.ofArguments arguments = Request.ofArguments arguments')
    (h : ∀ a, Request.ofArguments arguments ≠ .encode a) (level level' : Option String) :
    respondWith explain readFile level arguments
      = respondWith explain' readFile' level' arguments' := by
  unfold respondWith
  rw [← hsame]
  cases hrequest : Request.ofArguments arguments with
  | encode a => exact absurd hrequest (h a)
  | version => rfl
  | help => rfl
  | misuse => rfl

end

/--
**Verbosity does not interfere.**  Two commands may differ in the level of the environment,
in whether they ask for detailed progress, and in a valid level of the options file.  Then
they print the same and exit with the same code.  Commands that encode say the same list of
events: at the finest level all of it is shown, and at any other the records that are not
severe enough for the verbosity in force are left out and nothing else is changed; the
strictest verbosity leaves out all of them, and a stricter one leaves out more.  A failure is
reported in the same words, except that its cause may be told otherwise if it is about the file
whose level is another.  Commands that ask for no encoding answer alike throughout.
-/
theorem verbosity_only_hides_records (w : Wording) {readFile readFile' : String → Option String}
    {arguments arguments' : List String}
    (hrequest : (Request.ofArguments arguments).SameButVerbose (Request.ofArguments arguments'))
    (hfiles : ∀ a, Request.ofArguments arguments = .encode a → FilesAlike a readFile readFile') :
    let explain := w.explain readFile
    let explain' := w.explain readFile'
    (∀ level level',
      (respondWith explain readFile level arguments).output
          = (respondWith explain' readFile' level' arguments').output ∧
        (respondWith explain readFile level arguments).exitCode
          = (respondWith explain' readFile' level' arguments').exitCode) ∧
      (∀ a a', Request.ofArguments arguments = .encode a →
        Request.ofArguments arguments' = .encode a' →
        let events := (run readFile none a).events
        (Says explain readFile arguments a events ∧
          Says explain' readFile' arguments' a' events) ∧
        ((∀ r, Event.record r ∉ shownAt .off events) ∧
          ∀ v v' : Verbosity, v.severities ⊆ v'.severities →
            (shownAt v events).Sublist (shownAt v' events)) ∧
        ∀ f, Event.failure f ∈ events →
          (∀ path, f.IsAbout path → readFile path = readFile' path) →
          f.text explain = f.text explain') ∧
      ((∀ a, Request.ofArguments arguments ≠ .encode a) → ∀ level level',
        respondWith explain readFile level arguments
          = respondWith explain' readFile' level' arguments') := by
  intro explain explain'
  rcases hrequest.encode_or_same with ⟨a, verbose, h, h'⟩ | ⟨hsame, hother⟩
  · obtain ⟨hanswer, hevents⟩ := (hfiles a h).respond_alike h h'
    refine ⟨hanswer, ?_, fun hother => absurd h (hother a)⟩
    intro b b' hb hb' events
    cases h.symm.trans hb
    cases h'.symm.trans hb'
    exact ⟨hevents, ⟨record_not_mem_shownAt_off, fun _ _ => shownAt_sublist⟩,
      fun f _ hf => Failure.text_congr w hf⟩
  · have hrespond : ∀ level level', respondWith explain readFile level arguments
        = respondWith explain' readFile' level' arguments' :=
      respond_of_not_encode hsame hother
    refine ⟨fun level level' => ?_, fun a _ h => absurd h (hother a), fun _ => hrespond⟩
    rw [hrespond level level']
    exact ⟨rfl, rfl⟩

theorem level_taken_out_and_detail_asked_for :
    let quiet := "verbosity_level = \"OFF\"\n"
    let plain := "# as usual\n"
    let input := "statement = [[\"a\", \"sum\", [], \"=\", \x7b Symbolic = \"y\" \x7d]]\n"
    let files : Directory := [("options.toml", quiet), ("in.toml", input)]
    let files' : Directory := [("options.toml", plain), ("in.toml", input)]
    let arguments := ["in.toml", "-c", "options.toml", "--preamble"]
    let w : Wording := ⟨fun path => path, fun text => text, fun text => text⟩
    let answer := respondWith (w.explain files.read?) files.read?
    let answer' := respondWith (w.explain files'.read?) files'.read?
    let events := (run files.read? none
      { input := "in.toml", config := some "options.toml", preamble := true }).events
    (answer none arguments).output = (answer' (some "info") ("--verbose" :: arguments)).output ∧
      (answer none arguments).errorOutput
        = some (errorText (w.explain files.read?) (shownAt .off events)) ∧
      (answer' (some "info") ("--verbose" :: arguments)).errorOutput
        = some (errorText (w.explain files'.read?) (shownAt (.atLeast .info) events)) ∧
      events.length = 5 ∧ (shownAt (.atLeast .info) events).length = 4 ∧
        (shownAt .off events).length = 1 := by
  have hlevel : OptionsFile.SameButLevel "verbosity_level = \"OFF\"\n" "# as usual\n" := by
    have halone : ∀ text ∈ ["verbosity_level = \"OFF\"\n", "# as usual\n"],
        ∃ table ∈ Toml.parse? text, OptionsFile.LevelValid table ∧
          table.without OptionsFile.levelKey = [] := by decide +kernel
    obtain ⟨table, hparse, hvalid, hothers⟩ := halone "verbosity_level = \"OFF\"\n" (by simp)
    obtain ⟨table', hparse', hvalid', hothers'⟩ := halone "# as usual\n" (by simp)
    exact ⟨table, table', hparse, hparse', hvalid, hvalid', hothers.trans hothers'.symm⟩
  intro quiet plain input files files' arguments w answer answer' events
  let a : Arguments := { input := "in.toml", config := some "options.toml", preamble := true }
  have h : Request.ofArguments arguments = .encode a := by decide +kernel
  have hfiles : FilesAlike a files.read? files'.read? :=
    { options := by
        intro path hpath
        cases hpath
        exact Or.inr ⟨quiet, plain, by decide +kernel, by decide +kernel, hlevel⟩
      statements := Or.inl (by decide +kernel) }
  have hsame : ∀ b, Request.ofArguments arguments = .encode b →
      FilesAlike b files.read? files'.read? := by
    intro b hb
    rw [← Request.encode.inj (h.symm.trans hb)]
    exact hfiles
  obtain ⟨hanswer, hboth, -⟩ :=
    verbosity_only_hides_records w (Request.sameButVerbose_switch h rfl) hsame
  obtain ⟨⟨hquiet, hplain⟩, -, -⟩ := hboth a _ h (ofArguments_verbose h rfl)
  have hoff : a.InForce files.read? none .off := by
    intro o hoptions
    have hload : loadOptions files.read? a = .ok { emitPreamble := true, verbosity := .off } := by
      decide +kernel
    rw [loadOptions_eq_ok_iff.mpr hoptions] at hload
    rw [Except.ok.inj hload]
    exact .own fun _ _ hlevel => by cases hlevel
  have hinfo : (a.withVerbose true).InForce files'.read? (some "info") (.atLeast .info) :=
    fun _ _ => .environment rfl (Verbosity.ofNameOrRank?_eq_some_iff.mp (by decide +kernel))
  refine ⟨(hanswer none (some "info")).1, hquiet.selected none .off hoff,
    hplain.selected (some "info") _ hinfo, ?_⟩
  decide +kernel

/--
A level shows in a file that is both the options file and the statement file.  Written where
there was none, it is a key that statement files do not have, and the command fails.  Replaced
by another, it is quoted in the cause by a reader that quotes the line at fault.
-/
theorem level_of_shared_file_shows :
    let debug := "verbosity_level = \"debug\"\n"
    let info := "verbosity_level = \"info\"\n"
    let quoted (text : String) : String :=
      "TOML parse error at line 1, column 1\n  |\n1 | " ++ text ++
        "  | ^^^^^^^^^^^^^^^\nunknown field `verbosity_level`, expected `statement`\n"
    let w : Wording := ⟨fun path => path, fun text => text, quoted⟩
    let read? (text : String) : String → Option String := Directory.read? [("o.toml", text)]
    let answer (text : String) : Response :=
      respondWith (w.explain (read? text)) (read? text) (some "off") ["o.toml", "-c", "o.toml"]
    (OptionsFile.read "" = .ok {} ∧ OptionsFile.read info = .ok {} ∧
      OptionsFile.read debug = .ok { verbosity := .atLeast .debug }) ∧
    ((answer "").exitCode = 0 ∧ (answer debug).exitCode = 1) ∧
    (answer debug).errorOutput = some ("invalid statement file o.toml\n\nCaused by:\n" ++
      "    TOML parse error at line 1, column 1\n      |\n    1 | verbosity_level = \"debug\"\n" ++
      "      | ^^^^^^^^^^^^^^^\n    unknown field `verbosity_level`, expected `statement`\n" ++
      "    \n") ∧
    (answer info).errorOutput ≠ (answer debug).errorOutput := by
  decide +kernel

end CommandLine

end TheoryScript
