import Attestation.Data.Variable

/-!
# Diagnostics

A diagnostic says what is wrong and points at the places that are involved. Labels name the
reference of a variable but never its value. The position of a diagnostic is that of the first label
that has one.
-/

namespace Attestation

/-- What is wrong. -/
inductive Diagnostic.Kind where
  | duplicateAlias
  | reservedAlias
  | undefinedSchema
  | undeclaredAlias
  | missingWitnessData
  | missingInstanceData
  | missingEntry
  | typeMismatch
  | witnessExposure
  | invalidValue
  | duplicateElement
  | contradiction
  | unusedSubject
  /-- The compiler is at fault, not its input. -/
  | internal
  deriving DecidableEq, Repr

/-- The words for a kind. -/
def Diagnostic.Kind.name : Diagnostic.Kind → String
  | .duplicateAlias => "duplicate alias"
  | .reservedAlias => "reserved keyword"
  | .undefinedSchema => "undefined schema"
  | .undeclaredAlias => "undeclared alias"
  | .missingWitnessData => "missing witness data"
  | .missingInstanceData => "missing instance data"
  | .missingEntry => "missing entry"
  | .typeMismatch => "type mismatch"
  | .witnessExposure => "witness exposure"
  | .invalidValue => "invalid value"
  | .duplicateElement => "duplicate element"
  | .contradiction => "contradiction"
  | .unusedSubject => "unused subject"
  | .internal => "internal compiler error"

/-- How much it matters. -/
inductive Diagnostic.Severity where
  | warning
  | error
  deriving DecidableEq, Repr

def Diagnostic.Severity.name : Diagnostic.Severity → String
  | .warning => "warning"
  | .error => "error"

/-- A place that is involved. -/
structure Diagnostic.Label where
  position : Option Position
  /-- What there is to say about it; nothing for the place the diagnostic is about. -/
  message : String
  reference : Option Reference
  deriving DecidableEq, Repr

/-- Something to tell about a statement. -/
structure Diagnostic where
  kind : Diagnostic.Kind
  severity : Diagnostic.Severity
  message : String
  labels : List Diagnostic.Label
  notes : List String
  deriving DecidableEq, Repr

namespace Diagnostic

/-- An error that points nowhere yet. -/
def unlocated (kind : Kind) (message : String) : Diagnostic :=
  ⟨kind, .error, message, [], []⟩

/-- Adds a place. -/
def withLabel (d : Diagnostic) (position : Position) (message : String) : Diagnostic :=
  { d with labels := d.labels ++ [⟨some position, message, none⟩] }

/-- Adds the place of a variable: where it was written and what it was read from. -/
def withVariable (d : Diagnostic) (v : Variable) (message : String) : Diagnostic :=
  { d with labels := d.labels ++ [⟨v.position, message, v.reference⟩] }

/-- Adds a hint. -/
def withNote (d : Diagnostic) (note : String) : Diagnostic :=
  { d with notes := d.notes ++ [note] }

/-- An error at a position. -/
def located (kind : Kind) (position : Position) (message : String) : Diagnostic :=
  (unlocated kind message).withLabel position ""

/-- A warning at a position. -/
def warning (kind : Kind) (position : Position) (message : String) : Diagnostic :=
  { located kind position message with severity := .warning }

/-- An error of the compiler itself. -/
def internal (message : String) : Diagnostic :=
  (unlocated .internal message).withNote "this is a bug in the compiler, please report it"

/-- Where the diagnostic points first. -/
def position? (d : Diagnostic) : Option Position :=
  d.labels.findSome? (·.position)

def isInternal (d : Diagnostic) : Bool :=
  d.kind = .internal

/-- The diagnostic on one line. -/
def text (d : Diagnostic) : String :=
  s!"{d.severity.name}: {d.kind.name}: {d.message}"

end Diagnostic

end Attestation
