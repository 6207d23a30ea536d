import Attestation.Text.Unprintable

/-!
# Quoted text

A text or a character between quotes. The quote itself, the backslash and the usual controls are
written with a backslash; every other character that `unprintable` names is spelled out by its code
point in braces, `\u{301}`.
-/

namespace Attestation.Text.Quoted

/-- The code point of a character, spelled out. -/
def spelledOut (c : Char) : List Char :=
  ['\\', 'u', '\x7b'] ++ Nat.toDigits 16 c.toNat ++ ['\x7d']

/-- A character as it stands between two `quote` characters. -/
def escape (quote c : Char) : List Char :=
  if c = '\x00' then ['\\', '0']
  else if c = '\t' then ['\\', 't']
  else if c = '\r' then ['\\', 'r']
  else if c = '\n' then ['\\', 'n']
  else if c = '\\' then ['\\', '\\']
  else if c = quote then ['\\', c]
  else if unprintable c then spelledOut c
  else [c]

/-- A text between double quotes. -/
def text (s : String) : String :=
  String.ofList ('"' :: s.toList.flatMap (escape '"') ++ ['"'])

/-- A character between single quotes. -/
def char (c : Char) : String :=
  String.ofList ('\'' :: escape '\'' c ++ ['\''])

/-- A list of quoted texts in brackets. -/
def list (items : List String) : String :=
  "[" ++ String.intercalate ", " (items.map text) ++ "]"

end Attestation.Text.Quoted
