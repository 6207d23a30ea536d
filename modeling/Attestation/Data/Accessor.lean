import Attestation.Data.Schema

/-!
# Where data comes from

An accessor gives the value of a type that a selector leads to. It reads a document, or it stands in
for data that is not supplied: then every declared field is there, sealed. In a document an integer
is a number or a decimal text and bytes are marked hexadecimal text; a `null` counts as nothing.
-/

namespace Attestation

open Json Text

/-- The part of a document that steps lead to. A position in an object is a field named by its
decimal text. -/
def Json.follow? : Json → List Step → Option Json
  | document, [] => some document
  | .object fields, .field name :: rest => (Table.find? name fields).bind (·.follow? rest)
  | .object fields, .index position :: rest =>
    (Table.find? (Decimal.ofNat position) fields).bind (·.follow? rest)
  | .array items, .index position :: rest => items[position]?.bind (·.follow? rest)
  | _, _ => none

/-- A source of values. -/
inductive Accessor where
  /-- A document that holds the values. -/
  | document (root : Json)
  /-- Sealed values for the fields a schema declares. -/
  | synthetic (subject : String) (schema : Schema)

namespace Accessor

/-- What a document holds at a selector, other than `null`. -/
def stored? (root : Json) (selector : Selector) : Option Json :=
  match root.follow? selector.steps with
  | some .null => none
  | found => found

/-- Reads a value of a type off the part of a document at a selector. -/
def read (selector : Selector) (type : DataType) (entry : Json) : Except AccessFault Literal :=
  match type, entry with
  | .integer, .number (.integer value) => .ok (.integer value)
  | .integer, .number (.fraction ..) => .error (.invalidValue selector "not an integer")
  | .integer, .string value =>
    match Decimal.readInteger? value with
    | some n => .ok (.integer n)
    | none => .error (.typeMismatch selector type entry.kindName)
  | .text, .string value => .ok (.text value)
  | .bytes, .string value =>
    match readMarkedHex value with
    | .ok data => .ok (.bytes data)
    | .error _ => .error (.invalidValue selector "not a 0x-prefixed hex string")
  | .boolean, .boolean value => .ok (.boolean value)
  | _, _ => .error (.typeMismatch selector type entry.kindName)

/-- The value of a type at a selector. -/
def get (accessor : Accessor) (selector : Selector) (type : DataType) :
    Except AccessFault Literal :=
  match accessor with
  | document root =>
    match stored? root selector with
    | none => .error (.missingEntry selector)
    | some entry => read selector type entry
  | synthetic subject schema => do
    let declared ← schema.fieldType selector
    if declared ≠ type then .error (.typeMismatch selector type declared.name)
    else .ok (.sealed ⟨declared, subject, selector⟩)

/-- Whether there is a value at a selector. -/
def contains (accessor : Accessor) (selector : Selector) : Bool :=
  match accessor with
  | document root => (stored? root selector).isSome
  | synthetic _ schema => (schema.fieldType selector).isOk

end Accessor

end Attestation
