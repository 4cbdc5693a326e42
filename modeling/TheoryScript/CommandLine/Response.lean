/-
What a command answers.

A command exits with a code, prints to its output and may print to its error output.  A
failure is reported there at the end, with its cause; what is said about causes is up to the
system and the reader of documents, so the answer is given for any such explanation, and also
with the causes cut off.  The error output is looked at line by line, up to the mark in front
of a cause and without white space at the end.
-/
import TheoryScript.CommandLine.Run
import TheoryScript.Text.Blank

namespace TheoryScript.CommandLine

/-- The answer of a command. -/
structure Response where
  /-- The exit code. -/
  exitCode : Nat
  /-- What is printed. -/
  output : String
  /-- The error output, where there is any to look at. -/
  errorOutput : Option String
  deriving DecidableEq, Repr

/-- The lines of an error output, up to the causes of a failure. -/
def errorLines (text : String) : List String :=
  Text.lines (String.ofList (Text.trimEnd (Text.cutBefore causeMark.toList text.toList)))

/--
What is printed for help: how the command is used, in one line.  The description, the
arguments and the options that the reader of arguments lists besides are left out.
-/
def usage : String :=
  "Usage: " ++ programName ++ " [OPTIONS] <INPUT>\n"

/--
Answer a command, given what is said about the causes of failures, how files are read, and the
level that the environment asks for.
-/
def respondWith (explain : Explanation) (readFile : String → Option String) (level : Option String)
    (arguments : List String) : Response :=
  match Request.ofArguments arguments with
  | .misuse => { exitCode := 2, output := "", errorOutput := none }
  | .version =>
      { exitCode := 0, output := programName ++ " " ++ programVersion ++ "\n", errorOutput := some "" }
  | .help => { exitCode := 0, output := usage, errorOutput := some "" }
  | .encode a =>
      let r := run readFile level a
      { exitCode := r.exitCode, output := r.output, errorOutput := some (r.errorOutput explain) }

/-- The answer of a command with the cause of its failure cut off, if it has one. -/
def respond (readFile : String → Option String) (level : Option String) (arguments : List String) :
    Response :=
  respondWith unexplained readFile level arguments

end TheoryScript.CommandLine
