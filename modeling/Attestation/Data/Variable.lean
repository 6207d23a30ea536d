import Attestation.Data.Literal

/-!
# Variables

A variable is a value together with who knows it, where it was written and what it was read from.
Two variables stand for the same quantity if their identities agree: the visibility and the value,
wherever they come from. The value of a witness variable is never shown.
-/

namespace Attestation

/-- What two variables have to share to stand for the same quantity. -/
structure Identity where
  visibility : Visibility
  literal : Literal
  deriving DecidableEq, Repr

/-- A value and its provenance. -/
structure Variable where
  visibility : Visibility
  literal : Literal
  /-- Where it was written, if it was. -/
  position : Option Position
  /-- What it was read from, if it was. -/
  reference : Option Reference
  deriving DecidableEq, Repr

namespace Variable

def identity (v : Variable) : Identity :=
  ⟨v.visibility, v.literal⟩

/-- A value the compiler supplies: it is written nowhere. -/
def constant (literal : Literal) : Variable :=
  ⟨.disclosed, literal, none, none⟩

def isWitness (v : Variable) : Bool :=
  v.visibility = .witness

def isDisclosed (v : Variable) : Bool :=
  v.visibility = .disclosed

def type (v : Variable) : DataType :=
  v.literal.type

/-- The integer of a disclosed variable. That of a witness variable is not given, known or not. -/
def integer? (v : Variable) : Option Int :=
  if v.isDisclosed then v.literal.integer? else none

/-- The variable as messages may show it. -/
def describe (v : Variable) : String :=
  match v.reference, v.visibility with
  | some reference, _ => reference.path
  | none, .witness => "<witness>"
  | none, .disclosed => v.literal.display

/-- The variable with its visibility in front, without the value of a witness. -/
def debug (v : Variable) : String :=
  match v.visibility with
  | .witness => s!"Witness({v.describe})"
  | .disclosed => s!"Instance({v.literal.display})"

@[simp] theorem identity_visibility (v : Variable) : v.identity.visibility = v.visibility := rfl

@[simp] theorem identity_literal (v : Variable) : v.identity.literal = v.literal := rfl

theorem isDisclosed_iff (v : Variable) : v.isDisclosed = true ↔ v.visibility = .disclosed := by
  simp [isDisclosed]

theorem isWitness_iff (v : Variable) : v.isWitness = true ↔ v.visibility = .witness := by
  simp [isWitness]

end Variable

end Attestation
