import Attestation.Compiler.Context
import Attestation.Gadget.Fields
import Attestation.Optimizer

/-!
# From statements to gadgets

A statement is resolved in a scope: its subjects are declared against the context, its operands
become variables and its predicates gadgets. On the way the aliases that operands refer to are
noted; subjects whose alias was not are dropped with a warning. Inside a rule the reserved aliases
stand for the subject the rule is about.
-/

namespace Attestation

open Syntax

/-- The aliases that stand for the subject a rule is about. -/
def reservedAliases : List String :=
  ["private", "public"]

/-- Where a statement is resolved. -/
structure Scope where
  context : DataContext
  registry : Registry
  /-- The number of the source of the statement. -/
  source : Nat
  /-- Inside a rule, the alias of the subject it is about. -/
  parent : Option String

/-- A resolved statement. -/
structure Resolved where
  subjects : Table Subject
  gadgets : List Gadget
  warnings : List Diagnostic

/-- A walk through the operands of a statement. It may fail, and it keeps the aliases used so far,
each once. -/
abbrev Visit := StateT (List String) (Except Diagnostic)

namespace Scope

/-! ## Subjects -/

/-- The alias a subject is declared under. -/
def declaredAlias (scope : Scope) (ident : Ident) : Except Diagnostic String :=
  if ident.name ∈ reservedAliases then
    match scope.parent with
    | some parent => .ok parent
    | none =>
      .error ((Diagnostic.located .reservedAlias (ident.span.pin scope.source)
        s!"Reserved keyword `{ident.name}` used as alias.").withNote
          s!"`{ident.name}` is only available inside schema validation rules")
  else .ok ident.name

/-- The alias an operand refers to. -/
def referencedAlias (scope : Scope) (name : String) : String :=
  match scope.parent with
  | some parent => if name ∈ reservedAliases then parent else name
  | none => name

/-- The subject of a declaration under an alias. -/
def subject (scope : Scope) (name : String) (schema : Schema) (visibility : Visibility)
    (position : Position) : Except Diagnostic Subject :=
  match visibility with
  | .witness =>
    let data := scope.context.witness.find? name
    if data.isNone ∧ ¬ scope.context.witness.isEmpty then
      .error (.located .missingWitnessData position
        s!"Missing witness data for subject `{name}`.")
    else .ok (.witness name schema data (scope.context.disclosed.find? name) position)
  | .disclosed => Subject.disclosed name schema (scope.context.disclosed.find? name) position

/-- Adds a declared subject to those before it. -/
def declare (scope : Scope) (subjects : Table Subject) (declaration : Declaration) :
    Except Diagnostic (Table Subject) := do
  let name ← scope.declaredAlias declaration.subject
  let position := declaration.subject.span.pin scope.source
  match subjects.find? name with
  | some existing =>
    .error ((Diagnostic.located .duplicateAlias position
      s!"Alias `{name}` is already defined.").withLabel existing.position "first defined here")
  | none =>
    match scope.context.schema? declaration.schema.name with
    | none =>
      .error (.located .undefinedSchema (declaration.schema.span.pin scope.source)
        s!"Undefined schema `{declaration.schema.name}`.")
    | some schema =>
      let subject ← scope.subject name schema declaration.visibility position
      return subjects ++ [(name, subject)]

/-- The subjects of several declarations. -/
def declareAll (scope : Scope) (declarations : List Declaration) :
    Except Diagnostic (Table Subject) :=
  declarations.foldlM scope.declare []

/-! ## Operands and predicates -/

/-- The variable an operand stands for. -/
def operand (scope : Scope) (subjects : Table Subject) : Operand → Except Diagnostic Variable
  | .identifier name selector span =>
    let position := span.pin scope.source
    match subjects.find? (scope.referencedAlias name) with
    | none => .error (.located .undeclaredAlias position s!"Undeclared alias `{name}`.")
    | some subject => subject.resolve selector position
  | .literal constant span =>
    let position := span.pin scope.source
    match Literal.ofConstant constant with
    | .error fault =>
      .error (.located .invalidValue position s!"Invalid literal: {fault.message}.")
    | .ok literal => .ok ⟨.disclosed, literal, some position, none⟩

/-- The variable an operand stands for. Once it is resolved, the alias it refers to is used. -/
def visitOperand (scope : Scope) (subjects : Table Subject) (operand : Operand) :
    Visit Variable := do
  let v ← scope.operand subjects operand
  match operand with
  | .identifier name _ _ => modify fun used => used.insert (scope.referencedAlias name)
  | .literal .. => pure ()
  return v

/-- An argument of a predicate with its operands resolved from left to right. -/
def visitElement (scope : Scope) (subjects : Table Subject) : Element → Visit FieldValue
  | .single operand => .single <$> scope.visitOperand subjects operand
  | .absent => return .absent
  | .list operands => .list <$> operands.mapM (scope.visitOperand subjects)
  | .tree t => .tree <$> t.root.mapM (scope.visitOperand subjects)

/-- The arguments of a predicate by name. -/
def visitFields (scope : Scope) (subjects : Table Subject) (elements : List (String × Element)) :
    Visit (Table FieldValue) :=
  elements.mapM fun (name, element) => do
    let value ← scope.visitElement subjects element
    return (name, value)

/-- The error for a predicate that has no gadget. -/
def unregistered (kind : PredicateKind) (position : Position) : Diagnostic :=
  (Diagnostic.internal s!"no gadget registered for {kind.name} predicates").withLabel position
    "predicate without gadget"

/-- An error that points nowhere is put down to the predicate. -/
def placed (position : Position) (error : Diagnostic) : Diagnostic :=
  match error.position? with
  | some _ => error
  | none => error.withLabel position "in this predicate"

/-- The gadget a predicate stands for. -/
def visitPredicate (scope : Scope) (subjects : Table Subject) (predicate : Predicate) :
    Visit Gadget :=
  let position := predicate.span.pin scope.source
  match scope.registry.find? predicate.kind with
  | none => throw (unregistered predicate.kind position)
  | some kind => do
    let fields ← scope.visitFields subjects predicate.fields
    (Gadget.construct kind ⟨position, fields⟩).mapError (placed position)

/-! ## Statements -/

/-- The warning for a subject that is not used; a rule need not use the subject it is about. -/
def unusedWarning? (scope : Scope) (name : String) (subject : Subject) : Option Diagnostic :=
  if scope.parent = some name then none
  else some (.warning .unusedSubject subject.position
    s!"Subject `{name}` is declared but never used.")

/-- Takes a subject out of the table and adds the warning for it to those before. -/
def drop (scope : Scope) (state : Table Subject × List Diagnostic) (name : String) :
    Table Subject × List Diagnostic :=
  match state.1.find? name with
  | none => state
  | some subject =>
    (state.1.erase name, state.2 ++ (scope.unusedWarning? name subject).toList)

/-- Takes out the subjects that are not used, one after the other. -/
def dropUnused (scope : Scope) (subjects : Table Subject) (used : List String) :
    Table Subject × List Diagnostic :=
  (subjects.keys.filter fun name => !used.contains name).foldl scope.drop (subjects, [])

/-- Resolves the subjects and predicates of a statement. -/
def resolve (scope : Scope) (statement : Statement) : Except Diagnostic Resolved := do
  let subjects ← scope.declareAll statement.subjects
  let (gadgets, used) ← (statement.predicates.mapM (scope.visitPredicate subjects)).run []
  let (kept, warnings) := scope.dropUnused subjects used
  return ⟨kept, gadgets, warnings⟩

/-! ## Rules -/

/-- The scope of the rule of a subject. -/
def nested (scope : Scope) (source : Nat) (name : String) : Scope :=
  { scope with source, parent := some name }

/-- The gadgets and warnings of the rule of a subject; only witness subjects are subject to one. -/
def ruleOf (scope : Scope) (subject : Subject) :
    Except Diagnostic (List Gadget × List Diagnostic) :=
  match subject.visibility, subject.schema.rule with
  | .witness, some rule =>
    match scope.context.ruleSource? subject.schema with
    | none =>
      .error (.internal s!"validation rule of schema `{subject.schema.name}` was not registered")
    | some source => do
      let resolved ← (scope.nested source subject.name).resolve rule
      return (resolved.gadgets, resolved.warnings)
  | _, _ => .ok ([], [])

/-- Resolves a statement together with the rules of its subjects. -/
def resolveWithRules (scope : Scope) (statement : Statement) : Except Diagnostic Resolved := do
  let main ← scope.resolve statement
  let rules ← main.subjects.mapM fun (_, subject) => scope.ruleOf subject
  return ⟨main.subjects, main.gadgets ++ rules.flatMap (·.1), main.warnings ++ rules.flatMap (·.2)⟩

/-- Resolves a statement with its rules and optimizes the gadgets. -/
def compile (scope : Scope) (rules : RuleSet) (cap : Nat) (statement : Statement) :
    Except Diagnostic Resolved := do
  let resolved ← scope.resolveWithRules statement
  let gadgets ← Optimizer.optimize rules cap resolved.gadgets
  return { resolved with gadgets }

end Scope

end Attestation
