/-
The command answers what the library gives.

A command goes through stages: the options file, the name of the fragment, the statement
file.  Options are in force (`Governs`) once the first stage is passed, and a batch is
loaded (`Loads`) once all are.  A command fails with the message of the first stage that
it does not pass (`Fails`); each way to fail says which stages were passed before, so a
command either fails in one of these ways or loads a batch (`fails_or_loads`).  What it
answers is then proved for each side on its own.
-/
import TheoryScript.CommandLine.Directory
import TheoryScript.CommandLine.Response
import TheoryScript.Proofs.OptionsFile
import TheoryScript.Proofs.Partition

namespace TheoryScript

/-! ### Fragments by name -/

/-- A fragment has a name, whatever the case of its ASCII letters. -/
def Fragment.IsNamed (f : Fragment) (name : String) : Prop :=
  f ∈ Fragment.all ∧ f.theory.toUpper = name.toUpper

theorem Fragment.ofName?_eq_some_iff {name : String} {f : Fragment} :
    Fragment.ofName? name = some f ↔ f.IsNamed name := by
  have hupper : difference.theory.toUpper = difference.theory := by decide +kernel
  rw [ofName?, IsNamed, all, List.mem_singleton, List.find?_singleton]
  by_cases hname : difference.theory = name.toUpper
  · simp only [hname, beq_self_eq_true, if_true, Option.some.injEq]
    constructor
    · rintro rfl
      exact ⟨rfl, hupper.trans hname⟩
    · rintro ⟨rfl, -⟩
      rfl
  · simp only [beq_eq_false_iff_ne.mpr hname]
    constructor
    · rintro ⟨⟩
    · rintro ⟨rfl, h⟩
      exact absurd (hupper.symm.trans h) hname

theorem Fragment.ofName?_eq_none_iff {name : String} :
    Fragment.ofName? name = none ↔ ∀ f : Fragment, ¬f.IsNamed name := by
  simp only [← ofName?_eq_some_iff, Option.eq_none_iff_forall_ne_some, ne_eq]

namespace CommandLine

/-! ### Stages -/

namespace Arguments

variable (readFile : String → Option String) (a : Arguments)

/-- What the options file of a command describes; without one, the defaults. -/
def FileGives (file : Options) : Prop :=
  match a.config with
  | none => file = {}
  | some path => ∃ text, readFile path = some text ∧ OptionsFile.Describes text file

/-- How arguments go over the options of a file: a setting replaces, a switch adds. -/
structure Overrides (file o : Options) : Prop where
  /-- A name that is given replaces that of the file. -/
  logic : o.logic = a.logic.getD file.logic
  /-- The header is printed if either asks for it. -/
  emitPreamble : o.emitPreamble = true ↔ file.emitPreamble = true ∨ a.preamble = true
  /-- A skipped statement fails the run if either asks for it. -/
  failOnError : o.failOnError = true ↔ file.failOnError = true ∨ a.failOnError = true
  /-- Detailed progress replaces the verbosity of the file. -/
  verbosity : o.verbosity = if a.verbose then .atLeast .debug else file.verbosity

/-- The options in force are those of the options file, with the arguments over them. -/
def Governs (o : Options) : Prop :=
  ∃ file, a.FileGives readFile file ∧ a.Overrides file o

/-- A batch is loaded: options are in force, they name a fragment, and the statements are read. -/
structure Loads (o : Options) (f : Fragment) (statements : List Statement) : Prop where
  /-- The options in force. -/
  options : a.Governs readFile o
  /-- The fragment that they name. -/
  fragment : f.IsNamed o.logic
  /-- The statements of the statement file. -/
  statements : ∃ text, readFile a.input = some text ∧ StatementFile.read text = .ok statements

/-- The message of the first stage that is not passed. -/
inductive Fails : String → Prop
  | unreadableOptions {path : String} (hconfig : a.config = some path)
      (hfile : readFile path = none) : Fails ("cannot read options file " ++ path)
  | invalidOptions {path text : String} (hconfig : a.config = some path)
      (hfile : readFile path = some text) (hinvalid : ∀ file, ¬OptionsFile.Describes text file) :
      Fails ("invalid options file " ++ path)
  | unsupportedLogic {o : Options} (hoptions : a.Governs readFile o)
      (hlogic : ∀ f : Fragment, ¬f.IsNamed o.logic) :
      Fails ("unsupported logic `" ++ o.logic ++ "`, expected one of: " ++ "QF_IDL")
  | unreadableStatements {o : Options} {f : Fragment} (hoptions : a.Governs readFile o)
      (hlogic : f.IsNamed o.logic) (hfile : readFile a.input = none) :
      Fails ("cannot read statement file " ++ a.input)
  | invalidStatements {o : Options} {f : Fragment} {text : String}
      (hoptions : a.Governs readFile o) (hlogic : f.IsNamed o.logic)
      (hfile : readFile a.input = some text)
      (hinvalid : ∀ statements, StatementFile.read text ≠ .ok statements) :
      Fails ("invalid statement file " ++ a.input)

variable {readFile a}

theorem overrides_iff {file o : Options} : a.Overrides file o ↔ a.override file = o := by
  constructor
  · intro h
    have hemit : (file.emitPreamble || a.preamble) = o.emitPreamble := by
      rw [Bool.eq_iff_iff, h.emitPreamble, Bool.or_eq_true]
    have hfail : (file.failOnError || a.failOnError) = o.failOnError := by
      rw [Bool.eq_iff_iff, h.failOnError, Bool.or_eq_true]
    rw [override, ← h.logic, hemit, hfail, ← h.verbosity]
  · rintro rfl
    exact ⟨rfl, Bool.or_eq_true _ _ ▸ Iff.rfl, Bool.or_eq_true _ _ ▸ Iff.rfl, rfl⟩

/-- A command has options in force, unless its options file is at fault. -/
theorem fails_or_governs :
    (∃ message, a.Fails readFile message) ∨ ∃ o, a.Governs readFile o := by
  have hgoverns : ∀ file, a.FileGives readFile file → ∃ o, a.Governs readFile o :=
    fun file hfile => ⟨a.override file, file, hfile, overrides_iff.mpr rfl⟩
  cases hconfig : a.config with
  | none => exact Or.inr (hgoverns {} (by simp [FileGives, hconfig]))
  | some path =>
      cases hread : readFile path with
      | none => exact Or.inl ⟨_, .unreadableOptions hconfig hread⟩
      | some text =>
          by_cases hvalid : ∃ file, OptionsFile.Describes text file
          · obtain ⟨file, hfile⟩ := hvalid
            exact Or.inr (hgoverns file (by simpa [FileGives, hconfig, hread] using hfile))
          · exact Or.inl ⟨_, .invalidOptions hconfig hread (not_exists.mp hvalid)⟩

/-- With options in force a batch is loaded, unless their name or the statement file is at fault. -/
theorem fails_or_loads_of_governs {o : Options} (hoptions : a.Governs readFile o) :
    (∃ message, a.Fails readFile message) ∨ ∃ f statements, a.Loads readFile o f statements := by
  by_cases hlogic : ∃ f : Fragment, f.IsNamed o.logic
  · obtain ⟨f, hf⟩ := hlogic
    cases hread : readFile a.input with
    | none => exact Or.inl ⟨_, .unreadableStatements hoptions hf hread⟩
    | some text =>
        by_cases hvalid : ∃ statements, StatementFile.read text = .ok statements
        · obtain ⟨statements, hstatements⟩ := hvalid
          exact Or.inr ⟨f, statements, hoptions, hf, text, hread, hstatements⟩
        · exact Or.inl ⟨_, .invalidStatements hoptions hf hread (not_exists.mp hvalid)⟩
  · exact Or.inl ⟨_, .unsupportedLogic hoptions (not_exists.mp hlogic)⟩

/-- A command passes all stages, or there is a first one that it does not pass. -/
theorem fails_or_loads :
    (∃ message, a.Fails readFile message) ∨ ∃ o f statements, a.Loads readFile o f statements := by
  rcases fails_or_governs with hfails | ⟨o, hoptions⟩
  · exact Or.inl hfails
  · exact (fails_or_loads_of_governs hoptions).imp_right fun hloads => ⟨o, hloads⟩

end Arguments

/-! ### Loading -/

section

variable {readFile : String → Option String} {a : Arguments} {o : Options}

theorem loadOptions_eq_ok_iff : loadOptions readFile a = .ok o ↔ a.Governs readFile o := by
  simp only [loadOptions, Arguments.Governs, Arguments.FileGives, Arguments.overrides_iff]
  cases hconfig : a.config with
  | none => simp
  | some path =>
      cases hread : readFile path with
      | none => simp [hread]
      | some text =>
          simp only [hread, Option.some.injEq, exists_eq_left', ← OptionsFile.read_eq_ok_iff]
          cases OptionsFile.read text with
          | error error => simp
          | ok file => simp

theorem loadBatch_eq_ok_iff {f : Fragment} {statements : List Statement} :
    loadBatch readFile a o = .ok (f, statements) ↔
      f.IsNamed o.logic ∧
        ∃ text, readFile a.input = some text ∧ StatementFile.read text = .ok statements := by
  simp only [loadBatch, ← Fragment.ofName?_eq_some_iff]
  cases hlogic : Fragment.ofName? o.logic with
  | none => simp
  | some fragment =>
      cases hread : readFile a.input with
      | none => simp
      | some text =>
          cases hfile : StatementFile.read text with
          | error error => simp [hfile]
          | ok found => simp [hfile]

end

/-! ### Failing -/

/-- A response that reports a failure: nothing is printed, and the message comes last. -/
structure Response.FailsWith (r : Response) (message : String) : Prop where
  /-- The command fails. -/
  exitCode : r.exitCode = 1
  /-- Nothing is printed. -/
  output : r.output = ""
  /-- The error output, up to the cause of the failure, is log records and the message. -/
  errorOutput : ∃ records : List LogRecord,
    r.errorOutput = some (String.join (records.map (·.render ++ "\n")) ++ message ++ "\n")

section

variable {readFile : String → Option String} {level : Option String} {arguments : List String}
  {a : Arguments} {o : Options}

theorem respondWith_eq (explain : Explanation) (h : Request.ofArguments arguments = .encode a) :
    respondWith explain readFile level arguments
      = { exitCode := (run readFile level a).exitCode
          output := (run readFile level a).output
          errorOutput := some ((run readFile level a).errorOutput explain) } := by
  rw [respondWith, h]

/-- The error output of a run that says nothing but records before it fails. -/
theorem errorOutput_of_failure {r : Run} {records : List LogRecord} {failure : Failure}
    (h : r.events = records.map .record ++ [.failure failure]) :
    r.errorOutput unexplained
      = String.join ((records.filter (r.verbosity.shows ·.severity)).map (·.render ++ "\n"))
          ++ failure.message ++ "\n" := by
  have hshown : r.shown r.verbosity
      = (records.filter (r.verbosity.shows ·.severity)).map .record ++ [.failure failure] := by
    rw [Run.shown, h, List.filter_append, List.filter_map]
    rfl
  rw [Run.errorOutput, hshown]
  simp [Event.text, Failure.text, unexplained, String.join_append, String.append_assoc,
    Function.comp_def]

theorem failsWith_of_run (h : Request.ofArguments arguments = .encode a)
    {failure : Failure} (records : List LogRecord) (verbosity : Verbosity)
    (hrun : run readFile level a
      = { exitCode := 1, output := "", events := records.map .record ++ [.failure failure]
          verbosity }) :
    (respond readFile level arguments).FailsWith failure.message := by
  rw [respond, respondWith_eq unexplained h]
  exact ⟨by rw [hrun], by rw [hrun], _, congrArg some (errorOutput_of_failure (by rw [hrun]))⟩

/-- Nothing is logged before the options are in force. -/
theorem failsWith_of_loadOptions (h : Request.ofArguments arguments = .encode a)
    {failure : Failure} (hoptions : loadOptions readFile a = .error failure) :
    (respond readFile level arguments).FailsWith failure.message := by
  refine failsWith_of_run h [] .off ?_
  rw [run, hoptions]
  rfl

/-- Once the options are in force, the record that opens a run may come first. -/
theorem failsWith_of_loadBatch (h : Request.ofArguments arguments = .encode a)
    {failure : Failure} (hoptions : a.Governs readFile o)
    (hbatch : loadBatch readFile a o = .error failure) :
    (respond readFile level arguments).FailsWith failure.message := by
  obtain ⟨version, hversion⟩ : ∃ r, versionRecord = .record r := ⟨_, rfl⟩
  refine failsWith_of_run h [version] (verbosityInForce level o) ?_
  simp only [run, loadOptions_eq_ok_iff.mpr hoptions, hbatch, hversion]
  rfl

/-- **A command that fails reports the first stage that it does not pass.** -/
theorem failsWith_of_fails (h : Request.ofArguments arguments = .encode a) {message : String}
    (hfails : a.Fails readFile message) :
    (respond readFile level arguments).FailsWith message := by
  cases hfails with
  | @unreadableOptions path hconfig hfile =>
      have hoptions : loadOptions readFile a = .error (.unreadableOptions path) := by
        simp only [loadOptions, hconfig, hfile]
      exact failsWith_of_loadOptions h hoptions
  | @invalidOptions path text hconfig hfile hinvalid =>
      cases hread : OptionsFile.read text with
      | error error =>
          have hoptions : loadOptions readFile a = .error (.invalidOptions path error) := by
            simp only [loadOptions, hconfig, hfile, hread]
          exact failsWith_of_loadOptions h hoptions
      | ok file => exact absurd (OptionsFile.read_eq_ok_iff.mp hread) (hinvalid file)
  | @unsupportedLogic o hoptions hlogic =>
      have hbatch : loadBatch readFile a o = .error (.unsupportedLogic o.logic) := by
        rw [loadBatch, Fragment.ofName?_eq_none_iff.mpr hlogic]
      have hnames : ", ".intercalate Fragment.supported = "QF_IDL" := by decide +kernel
      rw [← hnames]
      exact failsWith_of_loadBatch h hoptions hbatch
  | @unreadableStatements o f hoptions hlogic hfile =>
      have hbatch : loadBatch readFile a o = .error (.unreadableStatements a.input) := by
        simp only [loadBatch, Fragment.ofName?_eq_some_iff.mpr hlogic, hfile]
      exact failsWith_of_loadBatch h hoptions hbatch
  | @invalidStatements o f text hoptions hlogic hfile hinvalid =>
      cases hread : StatementFile.read text with
      | error error =>
          have hbatch : loadBatch readFile a o = .error (.invalidStatements a.input error) := by
            simp only [loadBatch, Fragment.ofName?_eq_some_iff.mpr hlogic, hfile, hread]
          exact failsWith_of_loadBatch h hoptions hbatch
      | ok statements => exact absurd hread (hinvalid statements)

end

/-! ### Encoding -/

/-- A command that loads a batch answers with the encoding of that batch. -/
theorem respond_of_loads {readFile : String → Option String} (level : Option String)
    {arguments : List String} {a : Arguments} {o : Options} {f : Fragment}
    {statements : List Statement} (h : Request.ofArguments arguments = .encode a)
    (hloads : a.Loads readFile o f statements) :
    let encoded := encodeBatch f o (verbosityInForce level o) statements
    (respond readFile level arguments).output = encoded.output ∧
      (respond readFile level arguments).exitCode = encoded.exitCode := by
  intro encoded
  have hbatch : loadBatch readFile a o = .ok (f, statements) :=
    loadBatch_eq_ok_iff.mpr ⟨hloads.fragment, hloads.statements⟩
  have hrun : run readFile level a = encoded := by
    simp only [run, loadOptions_eq_ok_iff.mpr hloads.options, hbatch, encoded]
  rw [respond, respondWith_eq unexplained h, hrun]
  exact ⟨rfl, rfl⟩

theorem exitCode_encodeBatch {f : Fragment} {o : Options} {verbosity : Verbosity}
    {statements : List Statement} :
    (encodeBatch f o verbosity statements).exitCode
      = if o.failOnError = true ∧ ∃ s ∈ statements, s ∉ f.accepted statements then 1 else 0 := by
  have hskipped : (f.encodeAll statements).isComplete = false ↔
      ∃ s ∈ statements, s ∉ f.accepted statements := by
    rw [← Bool.not_eq_true, Fragment.isComplete_encodeAll_iff]
    simp only [not_forall, exists_prop]
  have hfails : (o.failOnError && !(f.encodeAll statements).isComplete) = true ↔
      o.failOnError = true ∧ ∃ s ∈ statements, s ∉ f.accepted statements := by
    rw [Bool.and_eq_true, Bool.not_eq_true', hskipped]
  exact if_congr hfails rfl rfl

/--
**The command agrees with the library.**  A command that does not pass a stage exits with
one, prints nothing, and reports the first such stage.  Any other command prints the
header, if the options in force ask for it, and then the assertions of its statements,
whatever was skipped; that is what the library leaves in a sink with the header.  It exits
with one exactly when the options in force ask for it and a statement was skipped.
-/
theorem command_agrees_with_library {readFile : String → Option String} {level : Option String}
    {arguments : List String} {a : Arguments} (h : Request.ofArguments arguments = .encode a) :
    let response := respond readFile level arguments
    (∀ message, a.Fails readFile message → response.FailsWith message) ∧
      (∀ o f statements, a.Loads readFile o f statements →
        let header := if o.emitPreamble then (Preamble.ofStatements f statements).render else ""
        response.output = header ++ (f.encodeAll statements).assertions ∧
          (f.emit statements { sink := { text := header } }).1.sink.text = response.output ∧
          response.exitCode
            = if o.failOnError = true ∧ ∃ s ∈ statements, s ∉ f.accepted statements
              then 1 else 0) ∧
      ((∃ message, a.Fails readFile message) ∨
        ∃ o f statements, a.Loads readFile o f statements) := by
  intro response
  refine ⟨fun message hfails => failsWith_of_fails h hfails, ?_, Arguments.fails_or_loads⟩
  intro o f statements hloads header
  obtain ⟨houtput, hexit⟩ := respond_of_loads level h hloads
  refine ⟨houtput, ?_, hexit.trans exitCode_encodeBatch⟩
  rw [f.emit_behind]
  exact houtput.symm

theorem options_file_and_flags_are_merged :
    let options := "logic = \"QF_LRA\"\nemit_preamble = true\n"
    let input := "statement = [[\"a\", \"dom\", [[[\x7b Literal = 7 \x7d]]], \"=\", " ++
      "\x7b Symbolic = \"x\" \x7d], [\"b\", \"sum\", [], \"=\", \x7b Symbolic = \"y\" \x7d]]\n"
    let files : Directory := [("options.toml", options), ("in.toml", input)]
    let both := respond files.read? none
      ["in.toml", "--config", "options.toml", "--logic=qf_idl", "--fail-on-error"]
    let fileOnly := respond files.read? none ["-c", "./options.toml", "in.toml"]
    (both.output = "(set-logic QF_IDL)\n(declare-fun a () Bool)\n(declare-fun b () Bool)\n" ++
        "(declare-fun x () Int)\n(declare-fun y () Int)\n(assert (= a (= x 7)))\n" ∧
      both.exitCode = 1) ∧
    fileOnly.FailsWith "unsupported logic `QF_LRA`, expected one of: QF_IDL" := by
  intro options input files both fileOnly
  let file : Options := { logic := "QF_LRA", emitPreamble := true }
  let merged : Options := { logic := "qf_idl", emitPreamble := true, failOnError := true }
  let found : List Statement :=
    [⟨"a", "dom", [⟨[.const (.int 7)]⟩], "=", .var "x"⟩, ⟨"b", "sum", [], "=", .var "y"⟩]
  have hfile : OptionsFile.Describes options file :=
    OptionsFile.read_eq_ok_iff.mp (by decide +kernel)
  constructor
  · let a : Arguments :=
      { input := "in.toml", config := some "options.toml", logic := some "qf_idl"
        failOnError := true }
    have harguments : Request.ofArguments
        ["in.toml", "--config", "options.toml", "--logic=qf_idl", "--fail-on-error"]
          = .encode a := by decide +kernel
    have hupper : Fragment.difference.theory.toUpper = "QF_IDL" := by decide +kernel
    have hlower : "qf_idl".toUpper = "QF_IDL" := by decide +kernel
    have hnamed : Fragment.difference.IsNamed "qf_idl" :=
      ⟨List.mem_singleton.mpr rfl, hupper.trans hlower.symm⟩
    have hloads : a.Loads files.read? merged .difference found :=
      { options := ⟨file, ⟨options, by decide +kernel, hfile⟩, Arguments.overrides_iff.mpr rfl⟩
        fragment := hnamed
        statements := ⟨input, by decide +kernel, by decide +kernel⟩ }
    obtain ⟨houtput, -, hexit⟩ :=
      (@command_agrees_with_library files.read? none _ a harguments).2.1 _ _ _ hloads
    refine ⟨houtput.trans ?_, hexit.trans ?_⟩
    · decide +kernel
    · decide +kernel
  · let a : Arguments := { input := "in.toml", config := some "./options.toml" }
    have harguments : Request.ofArguments ["-c", "./options.toml", "in.toml"] = .encode a := by
      decide +kernel
    have hgoverns : a.Governs files.read? file :=
      ⟨file, ⟨options, by decide +kernel, hfile⟩, Arguments.overrides_iff.mpr rfl⟩
    have hunnamed : ∀ f : Fragment, ¬f.IsNamed "QF_LRA" :=
      Fragment.ofName?_eq_none_iff.mp (Option.isNone_iff_eq_none.mp (by decide +kernel))
    exact (@command_agrees_with_library files.read? none _ a harguments).1 _
      (.unsupportedLogic hgoverns hunnamed)

end CommandLine

end TheoryScript
