import Attestation.Compiler.Resolution
import Attestation.Proofs.Assignment

/-!
# What statements say

A statement is read without the compiler: its identifiers name declared fields
(`DataContext.field?`), the data holds literals in them (`DataContext.held?`), and so every operand
is some quantity (`DataContext.quantity?`). Under an assignment of values to quantities a predicate
holds or not (`Syntax.Predicate.Holds`), and a statement asserts its own predicates together with
those of the rules of the witness subjects it mentions (`DataContext.Asserts`).
-/

namespace Attestation

open Syntax

/-! ## Operands -/

/-- The alias that a name stands for. In the rule about a subject the reserved aliases stand for
this subject. -/
def standsFor (about : Option String) (name : String) : String :=
  match about with
  | some subject => if name ∈ reservedAliases then subject else name
  | none => name

namespace DataContext

/-- The declared field that an identifier names, and who knows it. -/
def field? (context : DataContext) (about : Option String) (declarations : List Declaration)
    (name : String) (selector : Selector) : Option (Visibility × Reference) :=
  (declarations.find? fun d => standsFor about d.subject.name = standsFor about name).bind fun d =>
    (context.schema? d.schema.name).bind fun schema =>
      (schema.fieldType selector).toOption.map fun type =>
        (d.visibility, ⟨type, standsFor about name, selector⟩)

/-- What the data holds in a field. A field of a witness without data is known only by where it
is. -/
def held? (context : DataContext) : Visibility → Reference → Option Literal
  | .witness, r =>
    match context.witness.find? r.subject with
    | some accessor => (accessor.get r.selector r.type).toOption
    | none => some (.sealed r)
  | .disclosed, r =>
    (context.disclosed.find? r.subject).bind fun accessor =>
      (accessor.get r.selector r.type).toOption

/-- The quantity that an operand is. -/
def quantity? (context : DataContext) (about : Option String) (declarations : List Declaration) :
    Operand → Option Identity
  | .identifier name selector _ =>
    (context.field? about declarations name selector).bind fun (visibility, reference) =>
      (context.held? visibility reference).map fun literal => ⟨visibility, literal⟩
  | .literal constant _ =>
    (Literal.ofConstant constant).toOption.map fun literal => ⟨.disclosed, literal⟩

/-- The witness field that an operand reads. -/
def read? (context : DataContext) (about : Option String) (declarations : List Declaration) :
    Operand → Option Reference
  | .identifier name selector _ =>
    match context.field? about declarations name selector with
    | some (.witness, reference) => some reference
    | _ => none
  | .literal .. => none

/-- The value of an operand under an assignment. -/
def value? (context : DataContext) (σ : Assignment) (about : Option String)
    (declarations : List Declaration) (operand : Operand) : Option Value :=
  (context.quantity? about declarations operand).map σ.value

end DataContext

/-! ## Predicates -/

/-- The number that a bound is: that of its operand, or a limit if it was left out. -/
def BoundIs (value? : Operand → Option Value) (limit : Int) : Option Operand → Int → Prop
  | some operand, n => value? operand = some (.integer n)
  | none, n => n = limit

/-- What a predicate asserts is so, given the values of its operands. -/
def Syntax.Predicate.Holds (hashing : Hashing) (value? : Operand → Option Value) : Predicate → Prop
  | equality left right _ => ∃ x, value? left = some x ∧ value? right = some x
  | inequality left right _ => ∃ x y, value? left = some x ∧ value? right = some y ∧ x ≠ y
  | bounds value min max _ =>
    ∃ n lo hi, value? value = some (.integer n) ∧ BoundIs value? Bounds.least min lo ∧
      BoundIs value? Bounds.greatest max hi ∧ lo ≤ n ∧ n ≤ hi
  | membership member set _ => ∃ x, value? member = some x ∧ ∃ e ∈ set, value? e = some x
  | mimcHash preimage image _ =>
    ∃ x, value? preimage = some x ∧ value? image = some (hashing.mimc x)
  | merkleTree root tree _ =>
    ∃ x t, value? root = some x ∧ tree.root.map value? = t.map some ∧ hashing.merkle x t

/-- The operands of a predicate. -/
def Syntax.Predicate.arguments : Predicate → List Operand
  | equality left right _ => [left, right]
  | inequality left right _ => [left, right]
  | bounds value min max _ => value :: (min.toList ++ max.toList)
  | membership member set _ => member :: set
  | mimcHash preimage image _ => [preimage, image]
  | merkleTree root tree _ => root :: tree.root.leaves

/-! ## Statements -/

/-- The subjects that operands of a statement refer to. -/
def Syntax.Statement.mentions (statement : Statement) : List String :=
  (statement.predicates.flatMap Predicate.arguments).filterMap fun
    | .identifier name _ _ => some name
    | .literal .. => none

/-- The aliases of the witnesses that a statement declares, or a rule about a subject. -/
def Syntax.Statement.witnesses (about : Option String) (statement : Statement) : List String :=
  statement.subjects.filterMap fun d =>
    if d.visibility = .witness then some (standsFor about d.subject.name) else none

namespace DataContext

variable (context : DataContext)

/-- The rules that apply to a statement, with the subjects they are about: those of the schemas of
the witness subjects that it mentions. -/
def governing (statement : Statement) : List (String × Statement) :=
  statement.subjects.filterMap fun d =>
    if d.visibility = .witness ∧ d.subject.name ∈ statement.mentions then
      ((context.schema? d.schema.name).bind Schema.rule).map fun rule => (d.subject.name, rule)
    else none

/-- A statement and the rules that apply to it, each with the subject that it is about. -/
def parts (statement : Statement) : List (Option String × Statement) :=
  (none, statement) :: (context.governing statement).map fun entry => (some entry.1, entry.2)

/-- The witness fields that the operands of a statement read, or of a rule about a subject. -/
def reads (about : Option String) (statement : Statement) : List Reference :=
  (statement.predicates.flatMap Predicate.arguments).filterMap
    (context.read? about statement.subjects)

section

variable (hashing : Hashing) (σ : Assignment)

/-- The predicates of a statement hold, or those of a rule about a subject. -/
def Says (about : Option String) (statement : Statement) : Prop :=
  ∀ p ∈ statement.predicates, p.Holds hashing (context.value? σ about statement.subjects)

/-- What a statement asserts: its predicates, and those of the rules that apply to it. -/
def Asserts (statement : Statement) : Prop :=
  ∀ part ∈ context.parts statement, context.Says hashing σ part.1 part.2

end

variable {context}

theorem mem_parts_of_mem_governing {statement : Statement} {entry : String × Statement}
    (h : entry ∈ context.governing statement) :
    (some entry.1, entry.2) ∈ context.parts statement :=
  List.mem_cons_of_mem _ (List.mem_map.2 ⟨entry, h, rfl⟩)

end DataContext

end Attestation
