import Attestation.Json.Basic

/-!
# Reading values off documents

A record is written as an object, or as an array of its fields in the order of their declaration.
Its fields are read in the order in which the document holds them and the first fault is reported;
that a field is missing or an array too long is found last. `Attempt` carries the place of a fault
so that the parts of a record can be read in any order.
-/

namespace Attestation.Json

/-- Why a document does not describe a value. -/
inductive Fault where
  /-- The document does not have the right shape. -/
  | shape
  /-- A text that should be a decimal integer is none. -/
  | badInteger (text : String)
  deriving DecidableEq, Repr

/-- The wording of a fault, for those that are explained. -/
def Fault.message? : Fault → Option String
  | .shape => none
  | .badInteger text => some s!"invalid integer literal '{text}'"

/-- Reads a value off a document. -/
abbrev Decoder (α : Type) := Json → Except Fault α

/-! ## Records -/

/-- A value, or the place of the first fault and the fault. -/
inductive Attempt (α : Type) where
  | done (value : α)
  | failed (place : Nat) (fault : Fault)

namespace Attempt

variable {α β : Type}

def map (f : α → β) : Attempt α → Attempt β
  | done value => done (f value)
  | failed place fault => failed place fault

/-- Of two faults the one at the earlier place stands. -/
def apply (f : Attempt (α → β)) (a : Attempt α) : Attempt β :=
  match f, a with
  | done f, done value => done (f value)
  | done _, failed place fault => failed place fault
  | failed place fault, done _ => failed place fault
  | failed place fault, failed place' fault' =>
    if place' < place then failed place' fault' else failed place fault

instance : Functor Attempt where
  map := map

instance : Applicative Attempt where
  pure := done
  seq f a := apply f (a ())

end Attempt

/-- The fields a document gives for a record, each with what is found there. -/
structure Record (β : Type) where
  entries : List (String × β)
  /-- An array holds more items than the record has fields. -/
  excess : Bool

namespace Record

variable {α β : Type}

/-- The fields of a record declared with the given names. -/
def ofJson (names : List String) : Json → Except Fault (Record Json)
  | .object fields => .ok ⟨fields, false⟩
  | .array items => .ok ⟨names.zip items, decide (names.length < items.length)⟩
  | _ => .error .shape

/-- The place of a field and what is found there. -/
def locate? (name : String) (entries : List (String × β)) : Option (Nat × β) :=
  match entries with
  | [] => none
  | (key, value) :: rest =>
    if key = name then some (0, value) else (locate? name rest).map fun (i, v) => (i + 1, v)

/-- Reads a field; if it is missing, `missing` stands for it. -/
def fieldOr (record : Record β) (missing : Attempt α) (name : String)
    (decode : β → Except Fault α) : Attempt α :=
  match locate? name record.entries with
  | none => missing
  | some (place, content) =>
    match decode content with
    | .ok value => .done value
    | .error fault => .failed place fault

/-- Reads a field that has to be there. -/
def field (record : Record β) (name : String) (decode : β → Except Fault α) : Attempt α :=
  record.fieldOr (.failed record.entries.length .shape) name decode

/-- The outcome for the whole record. -/
def finish (record : Record β) : Attempt α → Except Fault α
  | .done value => if record.excess then .error .shape else .ok value
  | .failed _ fault => .error fault

end Record

/-! ## Scalars, lists and alternatives -/

def decodeString : Decoder String
  | .string value => .ok value
  | _ => .error .shape

def decodeBoolean : Decoder Bool
  | .boolean value => .ok value
  | _ => .error .shape

/-- A whole number below a limit. -/
def decodeBelow (limit : Nat) : Decoder Nat
  | .number (.integer value) =>
    if 0 ≤ value ∧ value < limit then .ok value.toNat else .error .shape
  | _ => .error .shape

/-- A list of values. -/
def decodeList {α : Type} (decode : Decoder α) : Decoder (List α)
  | .array items => items.mapM decode
  | _ => .error .shape

/-- A value or nothing, which is written `null`. -/
def decodeOption {α : Type} (decode : Decoder α) : Decoder (Option α)
  | .null => .ok none
  | document => (decode document).map some

/-- One of several alternatives: its name, and its content if it is written as an object with that
one field. -/
def decodeVariant : Decoder (String × Option Json)
  | .object [(name, content)] => .ok (name, some content)
  | .string name => .ok (name, none)
  | _ => .error .shape

/-- An alternative without content, or with the content `null`. -/
def decodeWord {α : Type} (word? : String → Option α) : Decoder α := fun document => do
  let (name, content) ← decodeVariant document
  match word? name, content with
  | some value, none => .ok value
  | some value, some .null => .ok value
  | _, _ => .error .shape

end Attestation.Json
