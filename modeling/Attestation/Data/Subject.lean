import Attestation.Data.Accessor
import Attestation.Diagnostic.Basic

/-!
# Subjects

A subject is an alias for data of a schema. The data of a witness subject may be missing, then it is
sealed. What everyone knows about a witness subject is its metadata: reading a value that the
metadata has too would give it away, and is refused.
-/

namespace Attestation

open Text

/-- An alias bound to data. -/
structure Subject where
  /-- Its alias. -/
  name : String
  schema : Schema
  visibility : Visibility
  accessor : Accessor
  /-- What is disclosed about a witness subject. -/
  metadata : Option Accessor
  /-- Where it is declared. -/
  position : Position

namespace Subject

/-- A subject whose data the prover alone knows. -/
def witness (name : String) (schema : Schema) (data metadata : Option Accessor)
    (position : Position) : Subject where
  name
  schema
  visibility := .witness
  accessor := data.getD (.synthetic name schema)
  metadata
  position

/-- A subject whose data everyone knows; it has to be supplied. -/
def disclosed (name : String) (schema : Schema) (data : Option Accessor) (position : Position) :
    Except Diagnostic Subject :=
  match data with
  | some accessor => .ok ⟨name, schema, .disclosed, accessor, none, position⟩
  | none =>
    .error (.located .missingInstanceData position s!"Missing instance data for `{name}`.")

def isWitness (subject : Subject) : Bool :=
  subject.visibility = .witness

/-- Whether a selector leads to a value that is meant to be secret and is disclosed all the same. -/
def exposes (subject : Subject) (selector : Selector) : Bool :=
  subject.isWitness &&
    match subject.metadata with
    | some metadata => metadata.contains selector
    | none => false

/-- The kind of error an access fault is. -/
def kindOfFault : AccessFault → Diagnostic.Kind
  | .missingEntry .. => .missingEntry
  | .typeMismatch .. => .typeMismatch
  | .notScalar .. => .typeMismatch
  | .invalidValue .. => .invalidValue

/-- The error for an access fault. -/
def accessError (subject : Subject) (position : Position) (fault : AccessFault) : Diagnostic :=
  .located (kindOfFault fault) position
    s!"Subject `{subject.name}` ({subject.schema.name}): {fault.message}."

/-- The value at a selector with its declared type. -/
def lookup (subject : Subject) (selector : Selector) : Except AccessFault (DataType × Literal) := do
  let type ← subject.schema.fieldType selector
  let literal ← subject.accessor.get selector type
  return (type, literal)

/-- The variable a selector written at a position stands for. -/
def resolve (subject : Subject) (selector : Selector) (position : Position) :
    Except Diagnostic Variable :=
  if subject.exposes selector then
    .error ((Diagnostic.located .witnessExposure position
      s!"`{subject.name}.{selector.text}` is simultaneously declared as witness and instance data.").withLabel
        subject.position "witness subject declared here")
  else
    match subject.lookup selector with
    | .error fault => .error (subject.accessError position fault)
    | .ok (type, literal) =>
      .ok ⟨subject.visibility, literal, some position, some ⟨type, subject.name, selector⟩⟩

/-- The subject in short. -/
def debug (subject : Subject) : String :=
  let visibility := match subject.visibility with
    | .witness => "Witness"
    | .disclosed => "Instance"
  "Subject \x7b alias: " ++ Quoted.text subject.name ++ ", schema: " ++
    Quoted.text subject.schema.name ++ ", classification: " ++ visibility ++ ", .. \x7d"

end Subject

end Attestation
