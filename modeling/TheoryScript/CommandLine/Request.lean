/-
What the arguments of a command ask for.

Arguments are read from left to right.  A long option is written `--name` or
`--name=value`; short options may be run together behind one hyphen, and the first of
them that wants a value takes the rest.  After `--` nothing is an option.  Reading stops
at the first argument that makes no sense, and also where the version or the help is
asked for, whatever follows.
-/
namespace TheoryScript.CommandLine

/-! ### Requests -/

/-- What a run is asked to do. -/
structure Arguments where
  /-- The path of the statement file. -/
  input : String
  /-- The path of the options file. -/
  config : Option String := none
  /-- The name of the fragment, over the options file. -/
  logic : Option String := none
  /-- Whether the header is asked for. -/
  preamble : Bool := false
  /-- Whether a skipped statement is to fail the run. -/
  failOnError : Bool := false
  /-- Whether detailed progress is asked for. -/
  verbose : Bool := false
  deriving DecidableEq, Repr

/-- What the arguments of a command ask for. -/
inductive Request where
  /-- To encode a statement file. -/
  | encode (arguments : Arguments)
  /-- To print the version. -/
  | version
  /-- To print the help. -/
  | help
  /-- Nothing that makes sense. -/
  | misuse
  deriving DecidableEq, Repr

/-! ### Options -/

/-- An option without a value. -/
inductive Switch where
  /-- Print the header. -/
  | preamble
  /-- Fail when a statement is skipped. -/
  | failOnError
  /-- Log detailed progress. -/
  | verbose
  /-- Print the version instead. -/
  | version
  /-- Print the help instead. -/
  | help
  deriving DecidableEq, Repr

/-- An option with a value. -/
inductive Setting where
  /-- The path of the options file. -/
  | config
  /-- The name of the fragment. -/
  | logic
  deriving DecidableEq, Repr

/-- The option of a long name. -/
def longOption? (name : String) : Option (Switch ⊕ Setting) :=
  match name with
  | "preamble" => some (.inl .preamble)
  | "fail-on-error" => some (.inl .failOnError)
  | "verbose" => some (.inl .verbose)
  | "version" => some (.inl .version)
  | "help" => some (.inl .help)
  | "config" => some (.inr .config)
  | "logic" => some (.inr .logic)
  | _ => none

/-- The option of a letter. -/
def shortOption? (letter : Char) : Option (Switch ⊕ Setting) :=
  match letter with
  | 'v' => some (.inl .verbose)
  | 'V' => some (.inl .version)
  | 'h' => some (.inl .help)
  | 'c' => some (.inr .config)
  | 'l' => some (.inr .logic)
  | _ => none

/-! ### Reading -/

/-- What the arguments read so far have set. -/
structure Seen where
  /-- The path of the statement file. -/
  input : Option String := none
  /-- The path of the options file. -/
  config : Option String := none
  /-- The name of the fragment. -/
  logic : Option String := none
  /-- Whether the header was asked for. -/
  preamble : Bool := false
  /-- Whether a skipped statement is to fail the run. -/
  failOnError : Bool := false
  /-- Whether detailed progress was asked for. -/
  verbose : Bool := false
  deriving DecidableEq, Repr

/-- Where reading goes after an argument. -/
inductive Next where
  /-- On to the next argument. -/
  | proceed (seen : Seen)
  /-- On to the value of a setting. -/
  | wantValue (setting : Setting) (seen : Seen)
  /-- Nowhere: the request is known. -/
  | stop (request : Request)

namespace Seen

/-- Take in a path that is no option; there is one, and it is not empty. -/
def addInput (seen : Seen) (path : String) : Next :=
  if seen.input.isSome || path.isEmpty then .stop .misuse
  else .proceed { seen with input := some path }

/-- Take in a switch, which must not come twice. -/
def addSwitch (seen : Seen) : Switch → Next
  | .preamble => if seen.preamble then .stop .misuse else .proceed { seen with preamble := true }
  | .failOnError =>
      if seen.failOnError then .stop .misuse else .proceed { seen with failOnError := true }
  | .verbose => if seen.verbose then .stop .misuse else .proceed { seen with verbose := true }
  | .version => .stop .version
  | .help => .stop .help

/-- Take in a setting, which must not come twice; a path must not be empty. -/
def addSetting (seen : Seen) (setting : Setting) (value : String) : Next :=
  match setting with
  | .config =>
      if seen.config.isSome || value.isEmpty then .stop .misuse
      else .proceed { seen with config := some value }
  | .logic =>
      if seen.logic.isSome then .stop .misuse else .proceed { seen with logic := some value }

/-- Take in a long option, given without its two hyphens. -/
def addLong (seen : Seen) (text : List Char) : Next :=
  let name := String.ofList (text.takeWhile (· != '='))
  match longOption? name, text.dropWhile (· != '=') with
  | none, _ => .stop .misuse
  | some (.inl s), [] => seen.addSwitch s
  | some (.inl _), _ :: _ => .stop .misuse
  | some (.inr s), [] => .wantValue s seen
  | some (.inr s), _ :: value => seen.addSetting s (String.ofList value)

/-- Take in short options, given without their hyphen. -/
def addShort (seen : Seen) : List Char → Next
  | [] => .proceed seen
  | letter :: rest =>
      match shortOption? letter with
      | none => .stop .misuse
      | some (.inl s) =>
          match seen.addSwitch s with
          | .proceed after => after.addShort rest
          | .wantValue setting after => .wantValue setting after
          | .stop request => .stop request
      | some (.inr s) =>
          match rest with
          | [] => .wantValue s seen
          | '=' :: value => seen.addSetting s (String.ofList value)
          | value => seen.addSetting s (String.ofList value)

/-- What is asked for at the end of the arguments. -/
def finish (seen : Seen) : Request :=
  match seen.input with
  | none => .misuse
  | some input =>
      .encode
        { input, config := seen.config, logic := seen.logic, preamble := seen.preamble
          failOnError := seen.failOnError, verbose := seen.verbose }

/-- Read arguments none of which is an option. -/
def readInputs (seen : Seen) : List String → Request
  | [] => seen.finish
  | path :: rest =>
      match seen.addInput path with
      | .proceed after => after.readInputs rest
      | .wantValue _ _ => .misuse
      | .stop request => request

/-- A hyphen with anything behind it starts an option, and is no value of one. -/
def looksLikeOption (argument : String) : Bool :=
  match argument.toList with
  | '-' :: _ :: _ => true
  | _ => false

/-- Take in one argument before any `--`. -/
def add (seen : Seen) (argument : String) : Next :=
  match argument.toList with
  | '-' :: '-' :: text => seen.addLong text
  | '-' :: letter :: rest => seen.addShort (letter :: rest)
  | _ => seen.addInput argument

/-- Read arguments to the end. -/
def read (seen : Seen) : List String → Request
  | [] => seen.finish
  | "--" :: rest => seen.readInputs rest
  | argument :: rest =>
      match seen.add argument with
      | .proceed after => after.read rest
      | .stop request => request
      | .wantValue setting after =>
          match rest with
          | [] => .misuse
          | value :: others =>
              if looksLikeOption value then .misuse
              else
                match after.addSetting setting value with
                | .proceed done => done.read others
                | .wantValue _ _ => .misuse
                | .stop request => request

end Seen

/-- What the arguments of a command ask for. -/
def Request.ofArguments (arguments : List String) : Request :=
  Seen.read {} arguments

end TheoryScript.CommandLine
