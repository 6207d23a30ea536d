import Attestation.CommandLine.Run

/-!
# The command

Reads the files that the arguments name, runs the command on them and writes what it comes to.
-/

namespace Attestation.CommandLine

/-- The content of a file, if it can be read. -/
def readInput (path : String) : IO (String × Option ByteArray) := do
  try
    let content ← IO.FS.readBinFile path
    return (path, some content)
  catch _ => return (path, none)

/-- Writes a file; whether that was possible. -/
def writeOutput (path content : String) : IO Bool := do
  try
    IO.FS.writeFile path content
    return true
  catch _ => return false

/-- Runs the command on the files at hand. -/
def execute (arguments : List String) : IO UInt32 := do
  let paths := match parse arguments with
    | .ok options => options.inputs
    | .error _ => []
  let inputs ← paths.mapM readInput
  let outcome := run (fun path => (List.lookup path inputs).join) arguments
  IO.print outcome.stdout
  IO.eprint outcome.stderr
  match outcome.file with
  | none => return outcome.exitCode.toUInt32
  | some (path, content) =>
    if ← writeOutput path content then return outcome.exitCode.toUInt32
    IO.eprintln s!"Failed to write {path}"
    return 1

end Attestation.CommandLine

def main (arguments : List String) : IO UInt32 :=
  Attestation.CommandLine.execute arguments
