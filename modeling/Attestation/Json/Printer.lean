import Attestation.Json.Basic
import Attestation.Text.Decimal

/-!
# Writing documents

Two layouts: `compact` on one line without blanks, and `pretty` with two blanks a level, one item or
field a line, and empty containers closed at once. Strings show every character but quotes,
backslashes and controls as it is.
-/

namespace Attestation.Json

open Text

/-- A character inside a string. -/
def escape (c : Char) : List Char :=
  if c = '"' then ['\\', '"']
  else if c = '\\' then ['\\', '\\']
  else if c = '\x08' then ['\\', 'b']
  else if c = '\x0c' then ['\\', 'f']
  else if c = '\n' then ['\\', 'n']
  else if c = '\r' then ['\\', 'r']
  else if c = '\t' then ['\\', 't']
  else if c.toNat < 0x20 then
    ['\\', 'u', '0', '0', Nat.digitChar (c.toNat / 16), Nat.digitChar (c.toNat % 16)]
  else [c]

/-- A string between its quotes. -/
def quote (s : String) : String :=
  String.ofList ('"' :: s.toList.flatMap escape ++ ['"'])

/-- The text of a number. -/
def Number.text : Number → String
  | .integer value => Decimal.ofInt value
  | .fraction mantissa exponent => Decimal.ofInt mantissa ++ "e" ++ Decimal.ofInt exponent

/-- A line break and the indentation of a level. -/
def newline (level : Nat) : String :=
  "\n" ++ String.ofList (List.replicate (2 * level) ' ')

mutual

/-- The document on one line. -/
def compact : Json → String
  | .null => "null"
  | .boolean value => if value then "true" else "false"
  | .number value => value.text
  | .string value => quote value
  | .array items => "[" ++ String.intercalate "," (compactItems items) ++ "]"
  | .object fields => "\x7b" ++ String.intercalate "," (compactFields fields) ++ "\x7d"

def compactItems : List Json → List String
  | [] => []
  | item :: rest => compact item :: compactItems rest

def compactFields : List (String × Json) → List String
  | [] => []
  | (name, value) :: rest => (quote name ++ ":" ++ compact value) :: compactFields rest

end

mutual

/-- The document with its containers spread over lines, the first line at a level. -/
def prettyAt (level : Nat) : Json → String
  | .null => "null"
  | .boolean value => if value then "true" else "false"
  | .number value => value.text
  | .string value => quote value
  | .array [] => "[]"
  | .array items =>
    "[" ++ String.intercalate "," (prettyItems (level + 1) items) ++ newline level ++ "]"
  | .object [] => "\x7b\x7d"
  | .object fields =>
    "\x7b" ++ String.intercalate "," (prettyFields (level + 1) fields) ++ newline level ++ "\x7d"

def prettyItems (level : Nat) : List Json → List String
  | [] => []
  | item :: rest => (newline level ++ prettyAt level item) :: prettyItems level rest

def prettyFields (level : Nat) : List (String × Json) → List String
  | [] => []
  | (name, value) :: rest =>
    (newline level ++ quote name ++ ": " ++ prettyAt level value) :: prettyFields level rest

end

/-- The document spread over lines. -/
def pretty (document : Json) : String :=
  prettyAt 0 document

end Attestation.Json
