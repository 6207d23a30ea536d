import Attestation.Compiler.Resolution
import Attestation.Diagnostic.Report

/-!
# Compilations

A request holds a statement, the premises that are proven already, schemas and data. First all
sources are registered; there is no outcome if they are too many. Then statement and premises are
compiled one by one against the same context, and the gadgets that a premise proves are taken out of
the statement. The first error ends the compilation: what is kept of it are the warnings of the
statements compiled before.
-/

namespace Attestation

open Text

/-- What is to be compiled, and with what. -/
structure Request where
  name : String
  statement : Syntax.Statement
  premises : List Syntax.Statement
  schemas : Table Schema
  witness : Table Accessor
  disclosed : Table Accessor
  /-- The number of steps the optimizer may take. -/
  cap : Nat

/-- A compiled statement: the subjects it uses and its gadgets. -/
structure Compiled where
  subjects : Table Subject
  gadgets : List Gadget

/-- Whether a gadget is among those of the statement. -/
def Compiled.proves (compiled : Compiled) (g : Gadget) : Bool :=
  GadgetSet.has compiled.gadgets g

/-- A successful compilation. -/
structure Compilation where
  statement : Compiled
  /-- The compiled premises, in order. -/
  premises : List Compiled
  warnings : List Diagnostic
  sources : SourceMap

/-- A failed compilation, with the warnings from before the error. -/
structure Failure where
  error : Diagnostic
  warnings : List Diagnostic
  sources : SourceMap

namespace Compilation

def hasWarnings (c : Compilation) : Bool :=
  !c.warnings.isEmpty

/-- The reports of the warnings. -/
def report? (c : Compilation) : Option String :=
  Diagnostic.reportAll? c.sources c.warnings

end Compilation

/-- The reports of the warnings and the error. -/
def Failure.report? (f : Failure) : Option String :=
  Diagnostic.reportAll? f.sources (f.warnings ++ [f.error])

namespace Request

/-- The context before rules are registered. -/
def context (request : Request) : DataContext :=
  ⟨request.schemas, request.witness, request.disclosed, []⟩

/-- Adds statements, in order, as far as there is room for them. -/
def addStatements? (sources : SourceMap) (statements : List Syntax.Statement) : Option SourceMap :=
  statements.foldlM (fun sources statement => sources.add? statement.source statement.text) sources

/-- The context that the request is compiled in, with the sources: first the statement and the
premises, then the rules. There is none if the sources are too many. -/
def register? (request : Request) : Option (DataContext × SourceMap) := do
  let sources ← addStatements? #[] (request.statement :: request.premises)
  request.context.registerRules? sources

/-- The scope of the statement with a given number: the main statement, then the premises. -/
def scope (context : DataContext) (number : Nat) : Scope :=
  ⟨context, .standard, number, none⟩

/-- Compiles premises, the first of which has a given number. The warnings are those so far. -/
def compilePremises (context : DataContext) (sources : SourceMap) (cap number : Nat)
    (warnings : List Diagnostic) :
    List Syntax.Statement → Except Failure (List Compiled × List Diagnostic)
  | [] => .ok ([], warnings)
  | premise :: rest =>
    match (scope context number).compile .standard cap premise with
    | .error error => .error ⟨error, warnings, sources⟩
    | .ok resolved => do
      let (others, warnings) ←
        compilePremises context sources cap (number + 1) (warnings ++ resolved.warnings) rest
      return (⟨resolved.subjects, resolved.gadgets⟩ :: others, warnings)

/-- Compiles a request in a context in which rules are registered. -/
def compileIn (request : Request) (context : DataContext) (sources : SourceMap) :
    Except Failure Compilation :=
  match (scope context 0).compile .standard request.cap request.statement with
  | .error error => .error ⟨error, [], sources⟩
  | .ok main => do
    let (premises, warnings) ←
      compilePremises context sources request.cap 1 main.warnings request.premises
    let proven (g : Gadget) : Bool := premises.any fun premise => premise.proves g
    return {
      statement := ⟨main.subjects, main.gadgets.filter fun g => !proven g⟩
      premises, warnings, sources }

/-- Compiles a request, unless its sources are too many. -/
def compile? (request : Request) : Option (Except Failure Compilation) := do
  let (context, sources) ← request.register?
  return request.compileIn context sources

/-- The request in short. -/
def debug (request : Request) : String :=
  "CompileArgs \x7b name: " ++ Quoted.text request.name ++
    ", premises: " ++ Decimal.ofNat request.premises.length ++
    ", witness: " ++ Quoted.list request.witness.keys ++
    ", instance: " ++ Quoted.list request.disclosed.keys ++
    ", schemas: " ++ Quoted.list request.schemas.keys ++
    ", optimizer: OptimizerConfig \x7b max_iterations: " ++ Decimal.ofNat request.cap ++
    " \x7d, .. \x7d"

end Request

/-- The context in short. -/
def DataContext.debug (context : DataContext) : String :=
  "DataContext \x7b schemas: " ++ Quoted.list context.schemas.keys ++
    ", witness: " ++ Quoted.list context.witness.keys ++
    ", instance: " ++ Quoted.list context.disclosed.keys ++ ", .. \x7d"

end Attestation
