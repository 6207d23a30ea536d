import Attestation.Table

/-!
# Documents

A document is a JSON value. The fields of an object are held in the order of their names, each name
once. A number is an integer if it was written as one and fits in 64 bits; any other number is kept
as a decimal fraction.
-/

namespace Attestation

/-- A number of a document. -/
inductive Json.Number where
  /-- A whole number in the range of signed or unsigned 64 bit words. -/
  | integer (value : Int)
  /-- The number `mantissa · 10 ^ exponent`. -/
  | fraction (mantissa exponent : Int)
  deriving DecidableEq, Repr

/-- A document. -/
inductive Json where
  | null
  | boolean (value : Bool)
  | number (value : Json.Number)
  | string (value : String)
  | array (items : List Json)
  | object (fields : List (String × Json))

namespace Json

/-- Adds a field where its name belongs; a field of that name is replaced. -/
def insertField (name : String) (value : Json) : List (String × Json) → List (String × Json)
  | [] => [(name, value)]
  | (key, old) :: rest =>
    if name < key then (name, value) :: (key, old) :: rest
    else if name = key then (name, value) :: rest
    else (key, old) :: insertField name value rest

/-- The object with the given fields. Of two fields of one name the later stands. -/
def ofFields (fields : List (String × Json)) : Json :=
  .object (fields.foldl (fun sorted (name, value) => insertField name value sorted) [])

/-- The document of a natural number that fits in 64 bits. -/
def ofNat (n : Nat) : Json :=
  .number (.integer n)

/-- The word for the kind of a document. -/
def kindName : Json → String
  | .null => "null"
  | .boolean _ => "boolean"
  | .number _ => "number"
  | .string _ => "string"
  | .array _ => "array"
  | .object _ => "object"

end Json

end Attestation
