import Attestation.Text.Decimal
import Attestation.Text.Quoted
import Attestation.Text.Utf8

/-!
# Hexadecimal text of bytes

Two digits a byte, the high half first. Writing uses lower case; reading takes either case and
reports the first thing that is wrong, an odd number of digits before any bad digit.
-/

namespace Attestation.Text.Hex

/-- Why a text is no sequence of bytes. -/
inductive Fault where
  /-- The digits do not pair up. -/
  | oddLength
  /-- The byte at this offset is no digit. -/
  | badDigit (byte : UInt8) (offset : Nat)
  deriving DecidableEq, Repr

/-- The wording of a fault. The bad byte is shown as the character with its code point. -/
def Fault.message : Fault → String
  | .oddLength => "Odd number of digits"
  | .badDigit byte offset =>
    s!"Invalid character {Quoted.char (Char.ofNat byte.toNat)} at position {Decimal.ofNat offset}"

/-- The value of a digit of either case. -/
def digit? (byte : UInt8) : Option UInt8 :=
  if '0'.toUInt8 ≤ byte ∧ byte ≤ '9'.toUInt8 then some (byte - '0'.toUInt8)
  else if 'a'.toUInt8 ≤ byte ∧ byte ≤ 'f'.toUInt8 then some (byte - 'a'.toUInt8 + 10)
  else if 'A'.toUInt8 ≤ byte ∧ byte ≤ 'F'.toUInt8 then some (byte - 'A'.toUInt8 + 10)
  else none

/-- The value of the digit at an offset. -/
def digit (byte : UInt8) (offset : Nat) : Except Fault UInt8 :=
  match digit? byte with
  | some value => .ok value
  | none => .error (.badDigit byte offset)

/-- Reads pairs of digits, the first of which stands at `offset`. -/
def decodePairs (offset : Nat) : List UInt8 → Except Fault (List UInt8)
  | high :: low :: rest => do
    let h ← digit high offset
    let l ← digit low (offset + 1)
    let tail ← decodePairs (offset + 2) rest
    return (h * 16 + l) :: tail
  | _ => .ok []

/-- Reads the bytes a text of digits stands for. -/
def decode (digits : List Char) : Except Fault (List UInt8) :=
  let input := bytes digits
  if input.length % 2 = 1 then .error .oddLength else decodePairs 0 input

/-- The two digits of a byte. -/
def encodeByte (byte : UInt8) : List Char :=
  [Nat.digitChar (byte.toNat / 16), Nat.digitChar (byte.toNat % 16)]

/-- The digits of a sequence of bytes. -/
def encode (data : List UInt8) : String :=
  String.ofList (data.flatMap encodeByte)

end Attestation.Text.Hex
