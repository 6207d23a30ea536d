/-!
# Command line options

An option takes a value, attached with an equals sign or as the next argument; what looks like an
option is not taken for a value. The statement and the output may be given once and not be empty,
the other options any number of times. Nothing else is accepted on the command line.
-/

namespace Attestation.CommandLine

/-- What is asked for on the command line. -/
structure Options where
  statement : String
  premises : List String
  schemas : List String
  witness : List String
  disclosed : List String
  output : Option String
  verbose : Bool
  deriving DecidableEq, Repr

/-- Why there is nothing to run. -/
inductive Refusal where
  /-- The usage is asked for. -/
  | help
  /-- The arguments make no sense. -/
  | usage
  deriving DecidableEq, Repr

/-- The options that take a value. -/
inductive Setting where
  | statement
  | premise
  | schema
  | witness
  | disclosed
  | output
  deriving DecidableEq, Repr

def Setting.ofName? : String → Option Setting
  | "statement" => some .statement
  | "premise" => some .premise
  | "schema" => some .schema
  | "witness" => some .witness
  | "instance" => some .disclosed
  | "output" => some .output
  | _ => none

/-- The settings so far; a statement may be missing still. -/
structure Draft where
  statement : Option String
  premises : List String
  schemas : List String
  witness : List String
  disclosed : List String
  output : Option String
  verbose : Bool

namespace Draft

def empty : Draft :=
  ⟨none, [], [], [], [], none, false⟩

/-- A path that may be given once. -/
def once (old : Option String) (value : String) : Except Refusal (Option String) :=
  if old.isSome ∨ value.isEmpty then .error .usage else .ok (some value)

/-- Adds a setting. -/
def set (draft : Draft) (setting : Setting) (value : String) : Except Refusal Draft :=
  match setting with
  | .statement => do
    let statement ← once draft.statement value
    return { draft with statement }
  | .output => do
    let output ← once draft.output value
    return { draft with output }
  | .premise =>
    if value.isEmpty then .error .usage
    else .ok { draft with premises := draft.premises ++ [value] }
  | .schema => .ok { draft with schemas := draft.schemas ++ [value] }
  | .witness => .ok { draft with witness := draft.witness ++ [value] }
  | .disclosed => .ok { draft with disclosed := draft.disclosed ++ [value] }

/-- Asks for more output, which may be done once. -/
def setVerbose (draft : Draft) : Except Refusal Draft :=
  if draft.verbose then .error .usage else .ok { draft with verbose := true }

/-- The options, complete if there is a statement. -/
def finish (draft : Draft) : Except Refusal Options :=
  match draft.statement with
  | some statement =>
    .ok ⟨statement, draft.premises, draft.schemas, draft.witness, draft.disclosed, draft.output,
      draft.verbose⟩
  | none => .error .usage

end Draft

/-- What an argument is. -/
inductive Argument where
  /-- The mark behind which there are no options. -/
  | stop
  /-- An option with a long name, and the value attached to it. -/
  | long (name : String) (value : Option String)
  /-- Options with names of one letter. -/
  | short (letters : List Char)
  | plain (value : String)
  deriving DecidableEq, Repr

def Argument.ofString (argument : String) : Argument :=
  match argument.toList with
  | ['-', '-'] => .stop
  | '-' :: '-' :: rest =>
    let name := String.ofList (rest.takeWhile (· ≠ '='))
    match rest.dropWhile (· ≠ '=') with
    | [] => .long name none
    | _ :: value => .long name (some (String.ofList value))
  | '-' :: c :: rest => .short (c :: rest)
  | _ => .plain argument

/-- Reads options of one letter. -/
def readShort (draft : Draft) : List Char → Except Refusal Draft
  | [] => .ok draft
  | 'v' :: rest => do
    let draft ← draft.setVerbose
    readShort draft rest
  | 'h' :: _ => .error .help
  | _ :: _ => .error .usage

/-- Reads arguments; `pending` is an option that still waits for its value. -/
def readArguments (draft : Draft) (pending : Option Setting) :
    List String → Except Refusal Draft
  | [] => if pending.isSome then .error .usage else .ok draft
  | argument :: rest =>
    match pending, Argument.ofString argument with
    | some setting, .plain value => do
      let draft ← draft.set setting value
      readArguments draft none rest
    | some _, _ => .error .usage
    | none, .plain _ => .error .usage
    | none, .stop => if rest.isEmpty then .ok draft else .error .usage
    | none, .short letters => do
      let draft ← readShort draft letters
      readArguments draft none rest
    | none, .long "help" none => .error .help
    | none, .long "verbose" none => do
      let draft ← draft.setVerbose
      readArguments draft none rest
    | none, .long name value =>
      match Setting.ofName? name, value with
      | none, _ => .error .usage
      | some setting, none => readArguments draft (some setting) rest
      | some setting, some value => do
        let draft ← draft.set setting value
        readArguments draft none rest

/-- The options that arguments ask for. -/
def parse (arguments : List String) : Except Refusal Options := do
  let draft ← readArguments .empty none arguments
  draft.finish

/-- How to use the command. -/
def usage : String :=
  "Usage: [OPTIONS] --statement <STATEMENT>\n\nOptions:\n" ++
  "      --statement <STATEMENT>  Statement syntax tree (JSON)\n" ++
  "      --premise <PREMISES>     Already-proven statement whose gadgets are dropped from the output\n" ++
  "      --witness <ALIAS=FILE>   Witness data for a subject, as ALIAS=FILE\n" ++
  "      --instance <ALIAS=FILE>  Instance data for a subject, as ALIAS=FILE\n" ++
  "      --schema <NAME=FILE>     Schema definition, as NAME=FILE\n" ++
  "      --output <OUTPUT>        Write the IR and slot tables as JSON instead of printing the IR\n" ++
  "  -v, --verbose                Debug logging for the compiler\n" ++
  "  -h, --help                   Print help\n"

end Attestation.CommandLine
