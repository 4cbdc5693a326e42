/-
Files of one directory.

A directory maps file names to contents.  A path is looked up by its parts between
slashes, where a single dot stands for the directory that it is in.  Absolute paths and
paths that end in a slash name no file.
-/
namespace TheoryScript.CommandLine

/-- File names with contents. -/
abbrev Directory := List (String × String)

/-- The parts of a path between slashes. -/
def pathParts : List Char → List (List Char)
  | [] => [[]]
  | '/' :: rest => [] :: pathParts rest
  | c :: rest =>
      match pathParts rest with
      | [] => [[c]]
      | part :: others => (c :: part) :: others

/-- The parts of a relative path to a file, without those that stay in place. -/
def fileParts? (path : String) : Option (List (List Char)) :=
  let parts := pathParts path.toList
  let last := parts.getLast?.getD []
  if path.toList.head? = some '/' || last = [] || last = ['.'] then none
  else some (parts.filter fun part => part != [] && part != ['.'])

/-- The contents of the file at a path, if there is one. -/
def Directory.read? (d : Directory) (path : String) : Option String :=
  match fileParts? path with
  | none => none
  | some parts => (d.find? fun file => fileParts? file.1 = some parts).map (·.2)

end TheoryScript.CommandLine
