import Attestation.Syntax.Statement
import Attestation.Text.Hex

/-!
# Values

The values that predicates speak about, and their types. A value the compiler may not see is sealed:
it is known only by where it is read from, so that two reads of one field are the same value.
-/

namespace Attestation

open Text

/-- The type of a value. -/
inductive DataType where
  | integer
  | text
  | bytes
  | boolean
  deriving DecidableEq, Repr

/-- The word for a type. -/
def DataType.name : DataType → String
  | .integer => "integer"
  | .text => "text"
  | .bytes => "bytes"
  | .boolean => "boolean"

/-- A typed place in the data of a subject. -/
structure Reference where
  type : DataType
  /-- The alias of the subject. -/
  subject : String
  selector : Selector
  deriving DecidableEq, Repr

/-- The place alone: alias and selector. -/
def Reference.path (r : Reference) : String :=
  s!"{r.subject}.{r.selector.text}"

/-- The place with its type. -/
def Reference.text (r : Reference) : String :=
  s!"{r.path}: {r.type.name}"

/-- A value. -/
inductive Literal where
  | integer (value : Int)
  | text (value : String)
  | bytes (data : List UInt8)
  | boolean (value : Bool)
  /-- A value known only by where it is read from. -/
  | sealed (origin : Reference)
  deriving DecidableEq, Repr

/-- Why a constant has no value. -/
inductive ConstantFault where
  /-- The mark in front of hexadecimal digits is missing. -/
  | missingMark
  | badHex (fault : Hex.Fault)
  deriving DecidableEq, Repr

def ConstantFault.message : ConstantFault → String
  | .missingMark => "hex literal must start with `0x`"
  | .badHex fault => s!"invalid hex literal: {fault.message}"

/-- The bytes of a marked hexadecimal text. -/
def readMarkedHex (text : String) : Except ConstantFault (List UInt8) :=
  match text.toList with
  | '0' :: 'x' :: digits => (Hex.decode digits).mapError .badHex
  | '0' :: 'X' :: digits => (Hex.decode digits).mapError .badHex
  | _ => .error .missingMark

namespace Literal

/-- The type of a value. -/
def type : Literal → DataType
  | integer _ => .integer
  | text _ => .text
  | bytes _ => .bytes
  | boolean _ => .boolean
  | sealed origin => origin.type

/-- The integer a value is, if it is known. -/
def integer? : Literal → Option Int
  | integer value => some value
  | _ => none

def isSealed : Literal → Bool
  | sealed _ => true
  | _ => false

/-- The value as it is shown. A sealed value shows where it is read from. -/
def display : Literal → String
  | integer value => Decimal.ofInt value
  | text value => Quoted.text value
  | bytes data => "0x" ++ Hex.encode data
  | boolean value => if value then "true" else "false"
  | sealed origin => "<" ++ origin.path ++ ">"

/-- The value of a constant. -/
def ofConstant : Syntax.Constant → Except ConstantFault Literal
  | .integer value => .ok (integer value)
  | .string value => .ok (text value)
  | .boolean value => .ok (boolean value)
  | .hex digits => (readMarkedHex digits).map bytes

end Literal

end Attestation
