import Attestation.CommandLine.Run

/-!
# The command on a directory in memory

A directory is a list of files by path. A path is resolved step by step: every directory on the way
has to hold a file. Nothing outside the directory exists, and a directory can be neither read nor
written.
-/

namespace Attestation.CommandLine

open Text

/-- The parts of a path. -/
abbrev Path := List String

/-- Files by path. -/
abbrev Directory := List (Path × ByteArray)

namespace Directory

/-- The parts of a path between its slashes. -/
def parts (path : String) : Path :=
  (splitOn '/' path.toList).map String.ofList

/-- The directory that holds the given texts; of two with one path the later stands. -/
def ofTexts (texts : List (String × String)) : Directory :=
  texts.reverse.map fun (path, text) => (parts path, text.toUTF8)

/-- Whether a path leads to a directory that holds a file. -/
def isDirectory (directory : Directory) (path : Path) : Bool :=
  path.isEmpty || directory.any fun (file, _) => path.isPrefixOf file && path.length < file.length

/-- Where the parts of a path lead, starting in a directory on the way; only to what may be a
file. -/
def walk? (directory : Directory) (here : Path) : Path → Option Path
  | [] => none
  | [name] =>
    let path := here ++ [name]
    if name = "" ∨ name = "." ∨ name = ".." ∨ directory.isDirectory path then none else some path
  | name :: rest =>
    if name = "" ∨ name = "." then walk? directory here rest
    else if name = ".." then
      if here.isEmpty then none else walk? directory here.dropLast rest
    else if directory.isDirectory (here ++ [name]) then walk? directory (here ++ [name]) rest
    else none

/-- The file a path names, whether or not it exists. Paths from the root lead outside. -/
def locate? (directory : Directory) (path : String) : Option Path :=
  match path.toList with
  | '/' :: _ => none
  | _ => directory.walk? [] (parts path)

/-- The content of a file. -/
def read? (directory : Directory) (path : String) : Option ByteArray := do
  let file ← directory.locate? path
  List.lookup file directory

/-- Writes a file; not possible where there is no directory. -/
def write? (directory : Directory) (path : String) (content : ByteArray) : Option Directory := do
  let file ← directory.locate? path
  return (file, content) :: directory.filter fun (other, _) => other ≠ file

end Directory

/-- Runs the command in a directory. A file that cannot be written is an error. -/
def runIn (directory : Directory) (arguments : List String) : Outcome × Directory :=
  let outcome := run directory.read? arguments
  match outcome.file with
  | none => (outcome, directory)
  | some (path, content) =>
    match directory.write? path content.toUTF8 with
    | some directory => (outcome, directory)
    | none => (failed 1 s!"Failed to write {path}", directory)

end Attestation.CommandLine
