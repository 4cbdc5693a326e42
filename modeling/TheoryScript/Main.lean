/-
The command itself.

This is the outer layer: it reads the files that the arguments name and the level from
the environment, and prints what the library answers.
-/
import TheoryScript.CommandLine.Response

namespace TheoryScript.CommandLine

/-- The contents of a file, or what the system says if it cannot be read as text. -/
def readFile? (path : String) : IO (Except String String) := do
  try
    return .ok (← IO.FS.readFile path)
  catch error =>
    return .error (toString error)

/-- The paths that a request will read. -/
def pathsOf : Request → List String
  | .encode a => a.input :: a.config.toList
  | .version => []
  | .help => []
  | .misuse => []

/-- What is wrong with a text, if anything is. -/
def faultOf {α : Type} : Except Toml.ReadError α → String
  | .ok _ => ""
  | .error error => error.message

/-- The causes of failures as the system and the library word them. -/
def wordingOf (files : List (String × Except String String)) : Wording where
  unreadable path :=
    match files.lookup path with
    | some (.error reason) => reason
    | _ => ""
  invalidOptions text := faultOf (OptionsFile.read text)
  invalidStatements text := faultOf (StatementFile.read text)

/-- Answer a command with the files and the environment of the system. -/
def answer (arguments : List String) : IO UInt32 := do
  let paths := pathsOf (Request.ofArguments arguments)
  let contents ← paths.mapM readFile?
  let files := paths.zip contents
  let readFile := fun path => (files.lookup path).bind Except.toOption
  let level ← IO.getEnv "RUST_LOG"
  let response := respondWith ((wordingOf files).explain readFile) readFile level arguments
  IO.print response.output
  (← IO.getStderr).putStr (response.errorOutput.getD usage)
  return response.exitCode.toUInt32

end TheoryScript.CommandLine

/-- The command. -/
def main (arguments : List String) : IO UInt32 :=
  TheoryScript.CommandLine.answer arguments
