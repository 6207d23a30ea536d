import Attestation.Data.Literal
import Attestation.Syntax.Document

/-!
# Schemas

A schema declares the type of every value a subject may be asked for. It may also carry a rule, a
statement about the subject that has to hold of every witness subject of the schema. A selector is
followed through the declared fields by its segments; inside a list any position leads on.
-/

namespace Attestation

open Json Text

/-- What is declared for a field. -/
inductive FieldType where
  | scalar (type : DataType)
  | object (fields : List (String × FieldType))
  /-- A list whose items are all declared alike. -/
  | list (element : FieldType)

/-- Declared fields and the rule that goes with them. -/
structure Schema where
  name : String
  fields : Table FieldType
  rule : Option Syntax.Statement

/-- Why a selector leads to no value of the type that is asked for. The value itself is never
mentioned. -/
inductive AccessFault where
  | missingEntry (selector : Selector)
  | typeMismatch (selector : Selector) (expected : DataType) (found : String)
  | notScalar (selector : Selector) (found : String)
  | invalidValue (selector : Selector) (reason : String)
  deriving DecidableEq, Repr

def AccessFault.message : AccessFault → String
  | .missingEntry selector => s!"missing entry `{selector.text}`"
  | .typeMismatch selector expected found =>
    s!"type mismatch at `{selector.text}`: expected {expected.name}, found {found}"
  | .notScalar selector found =>
    s!"type mismatch at `{selector.text}`: expected a scalar, found {found}"
  | .invalidValue selector reason => s!"invalid value at `{selector.text}`: {reason}"

/-- The declaration that segments lead to. -/
def FieldType.follow? : FieldType → List String → Option FieldType
  | declared, [] => some declared
  | .object fields, segment :: rest => (Table.find? segment fields).bind (·.follow? rest)
  | .list element, segment :: rest =>
    if (Decimal.readIndex? segment).isSome then element.follow? rest else none
  | .scalar _, _ :: _ => none

namespace Schema

/-- The type declared for the scalar a selector leads to. -/
def fieldType (schema : Schema) (selector : Selector) : Except AccessFault DataType :=
  let declared := match selector.segments with
    | [] => none
    | first :: rest => (schema.fields.find? first).bind (·.follow? rest)
  match declared with
  | none => .error (.missingEntry selector)
  | some (.scalar type) => .ok type
  | some (.object _) => .error (.notScalar selector "object")
  | some (.list _) => .error (.notScalar selector "list")

/-- The schema of a Swiss passport, which every statement may use. -/
def passport : Schema where
  name := "passport_ch"
  fields :=
    [("firstName", .scalar .text), ("lastName", .scalar .text), ("nationality", .scalar .text),
      ("documentNumber", .scalar .text), ("dateOfBirth", .scalar .integer),
      ("dateOfExpiry", .scalar .integer), ("signature", .scalar .bytes),
      ("issuer", .object [("country", .scalar .text), ("authority", .scalar .text)])]
  rule := none

/-- The schema that goes with a name without being supplied. -/
def builtin? (name : String) : Option Schema :=
  if name = passport.name then some passport else none

end Schema

/-! ## Schemas as documents -/

/-- The type a word names. -/
def DataType.ofName? : String → Option DataType
  | "integer" => some .integer
  | "text" => some .text
  | "bytes" => some .bytes
  | "boolean" => some .boolean
  | _ => none

mutual

def FieldType.toJson : FieldType → Json
  | .scalar type => .object [("scalar", .string type.name)]
  | .object fields => .object [("object", .ofFields (fieldTypesToJson fields))]
  | .list element => .object [("list", FieldType.toJson element)]

/-- The documents of declared fields, by name. -/
def fieldTypesToJson : List (String × FieldType) → List (String × Json)
  | [] => []
  | (name, declared) :: rest => (name, FieldType.toJson declared) :: fieldTypesToJson rest

end

mutual

def FieldType.ofJson : Json → Except Fault FieldType
  | .object [(name, content)] =>
    if name = "scalar" then (decodeWord DataType.ofName? content).map .scalar
    else if name = "object" then (fieldTypesOfJson content).map .object
    else if name = "list" then (FieldType.ofJson content).map .list
    else .error .shape
  | _ => .error .shape

/-- Reads declared fields off an object. -/
def fieldTypesOfJson : Json → Except Fault (Table FieldType)
  | .object fields => fieldTypesOfFields fields
  | _ => .error .shape

/-- Reads declared fields one after the other. -/
def fieldTypesOfFields : List (String × Json) → Except Fault (Table FieldType)
  | [] => .ok []
  | (name, content) :: rest => do
    let declared ← FieldType.ofJson content
    let others ← fieldTypesOfFields rest
    return (name, declared) :: others

end

/-- A schema; the rule is left out if there is none. -/
def Schema.toJson (schema : Schema) : Json :=
  .object ([("fields", .ofFields (fieldTypesToJson schema.fields)), ("name", .string schema.name)] ++
    match schema.rule with
    | some rule => [("validation_rule", rule.toJson)]
    | none => [])

def Schema.ofJson : Decoder Schema := fun document => do
  let record ← Record.ofJson ["name", "fields", "validation_rule"] document
  record.finish (Schema.mk <$> record.field "name" decodeString
    <*> record.field "fields" fieldTypesOfJson
    <*> record.fieldOr (.done none) "validation_rule" (decodeOption Syntax.Statement.ofJson))

end Attestation
