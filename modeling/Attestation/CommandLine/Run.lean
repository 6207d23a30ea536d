import Attestation.CommandLine.Load
import Attestation.CommandLine.Options
import Attestation.Compiler.Compilation
import Attestation.Compiler.Rendering

/-!
# Running the command

The command loads what its options name, compiles it, and prints the lines or writes the document to
a file. It only looks at files through a function that gives their content, and leaves the writing
to its caller.
-/

namespace Attestation.CommandLine

/-- The version of the compiler. -/
def version : String := "0.1.0"

/-- What the command comes to. -/
structure Outcome where
  exitCode : Nat
  stdout : String
  stderr : String
  /-- A file to write: its path and its content. -/
  file : Option (String × String)
  deriving DecidableEq, Repr

/-- Loads what bindings name, in turn; of two bindings of a name the later stands. -/
def loadBindings {α : Type} (load : Option ByteArray → Except LoadFault α)
    (read : String → Option ByteArray) (bindings : List String) : Except LoadFault (Table α) := do
  let entries ← bindings.mapM fun text => do
    let (name, path) ← Load.binding text
    let value ← load (read path)
    return (name, value)
  return .ofList entries

/-- The request that options stand for. -/
def request (read : String → Option ByteArray) (options : Options) : Except LoadFault Request := do
  let statement ← Load.statement (read options.statement)
  let premises ← options.premises.mapM fun path => Load.statement (read path)
  let schemas ← loadBindings Load.schema read options.schemas
  let witness ← loadBindings Load.accessor read options.witness
  let disclosed ← loadBindings Load.accessor read options.disclosed
  return ⟨options.statement, statement, premises, schemas, witness, disclosed, Optimizer.defaultCap⟩

/-- The exit code of a command that breaks off. -/
def brokenOff : Nat := 101

/-- The outcome of a failure. -/
def failed (exitCode : Nat) (message : String) : Outcome :=
  ⟨exitCode, "", message ++ "\n", none⟩

/-- The outcome of a compilation, whose warnings are reported. -/
def finished (output : Option String) (warnings : String) (rendered : Rendered) : Outcome :=
  match output with
  | some path => ⟨0, "", warnings, some (path, rendered.document)⟩
  | none => ⟨0, rendered.text ++ "\n", warnings, none⟩

/-- Runs the command. -/
def run (read : String → Option ByteArray) (arguments : List String) : Outcome :=
  match parse arguments with
  | .error .help => ⟨0, usage, "", none⟩
  | .error .usage => failed 2 usage
  | .ok options =>
    match request read options with
    | .error fault => failed 1 fault.message
    | .ok request =>
      match request.compile? with
      | none => failed brokenOff "too many statement sources"
      | some (.error failure) => failed 1 (failure.report?.getD failure.error.text)
      | some (.ok compilation) =>
        finished options.output (compilation.report?.getD "") (render compilation.statement.gadgets)

/-- The files that options name, in the order in which they are read. -/
def Options.inputs (options : Options) : List String :=
  let bound := (options.schemas ++ options.witness ++ options.disclosed).filterMap fun text =>
    match Load.binding text with
    | .ok (_, path) => some path
    | .error _ => none
  options.statement :: options.premises ++ bound

end Attestation.CommandLine
