import Attestation.Json.Number

/-!
# Reading documents

The grammar is strict: no trailing characters, commas or comments, no raw control characters in
strings, no unpaired surrogate escapes. Containers may be nested to a given depth, on which the
reader recurses.
-/

namespace Attestation.Json

/-- A reader takes a value off the front of a text. -/
abbrev Reader (α : Type) := List Char → Option (α × List Char)

/-- The characters that may stand between the parts of a document. -/
def isBlank (c : Char) : Bool :=
  c = ' ' || c = '\n' || c = '\t' || c = '\r'

def skipBlanks (cs : List Char) : List Char :=
  cs.dropWhile isBlank

/-- Takes a given text off the front. -/
def expect? : List Char → List Char → Option (List Char)
  | [], cs => some cs
  | p :: ps, c :: cs => if p = c then expect? ps cs else none
  | _ :: _, [] => none

/-! ## Strings -/

/-- Splits a string body at its closing quote, escapes left as they are. -/
def stringBody? : List Char → Option (List Char × List Char)
  | [] => none
  | '"' :: rest => some ([], rest)
  | '\\' :: c :: rest => (stringBody? rest).map fun (body, rest) => ('\\' :: c :: body, rest)
  | c :: rest =>
    if c.toNat < 0x20 then none else (stringBody? rest).map fun (body, rest) => (c :: body, rest)

/-- The value of a hexadecimal digit. -/
def hexValue? (c : Char) : Option Nat :=
  if '0' ≤ c ∧ c ≤ '9' then some (c.toNat - '0'.toNat)
  else if 'a' ≤ c ∧ c ≤ 'f' then some (c.toNat - 'a'.toNat + 10)
  else if 'A' ≤ c ∧ c ≤ 'F' then some (c.toNat - 'A'.toNat + 10)
  else none

/-- The value of four hexadecimal digits. -/
def unit? (a b c d : Char) : Option Nat := do
  let a ← hexValue? a
  let b ← hexValue? b
  let c ← hexValue? c
  let d ← hexValue? d
  return ((a * 16 + b) * 16 + c) * 16 + d

/-- The character a one-letter escape stands for. -/
def escaped? : Char → Option Char
  | '"' => some '"'
  | '\\' => some '\\'
  | '/' => some '/'
  | 'b' => some '\x08'
  | 'f' => some '\x0c'
  | 'n' => some '\n'
  | 'r' => some '\r'
  | 't' => some '\t'
  | _ => none

/-- The code units of a string body: characters as they are, or as 16 bit units. -/
def units? : List Char → Option (List (Char ⊕ Nat))
  | [] => some []
  | '\\' :: 'u' :: a :: b :: c :: d :: rest => do
    let unit ← unit? a b c d
    let tail ← units? rest
    return .inr unit :: tail
  | '\\' :: c :: rest => do
    let c ← escaped? c
    let tail ← units? rest
    return .inl c :: tail
  | c :: rest => do
    let tail ← units? rest
    return .inl c :: tail

/-- The characters of a sequence of code units; surrogates have to come in pairs. -/
def decodeUnits? : List (Char ⊕ Nat) → Option (List Char)
  | [] => some []
  | .inl c :: rest => (decodeUnits? rest).map (c :: ·)
  | .inr high :: .inr low :: rest =>
    if 0xd800 ≤ high ∧ high < 0xdc00 then
      if 0xdc00 ≤ low ∧ low < 0xe000 then
        let point := 0x10000 + (high - 0xd800) * 0x400 + (low - 0xdc00)
        (decodeUnits? rest).map (Char.ofNat point :: ·)
      else none
    else if 0xdc00 ≤ high ∧ high < 0xe000 then none
    else (decodeUnits? (.inr low :: rest)).map (Char.ofNat high :: ·)
  | .inr unit :: rest =>
    if 0xd800 ≤ unit ∧ unit < 0xe000 then none
    else (decodeUnits? rest).map (Char.ofNat unit :: ·)

/-- Reads a string behind its opening quote. -/
def string? : Reader String := fun cs => do
  let (body, rest) ← stringBody? cs
  let units ← units? body
  let chars ← decodeUnits? units
  return (String.ofList chars, rest)

/-! ## Values -/

/-- Reads the items of an array behind one of them, up to the closing bracket. There are no more of
them than characters in the first text. -/
def items? (item? : Reader Json) : List Char → Reader (List Json)
  | [], _ => none
  | _ :: fuel, cs => do
    let (item, cs) ← item? cs
    match skipBlanks cs with
    | ',' :: cs =>
      let (rest, cs) ← items? item? fuel cs
      return (item :: rest, cs)
    | ']' :: cs => return ([item], cs)
    | _ => none

/-- Reads a field of an object, from the blanks before its name to the end of its value. -/
def field? (item? : Reader Json) : Reader (String × Json) := fun cs =>
  match skipBlanks cs with
  | '"' :: cs => do
    let (name, cs) ← string? cs
    match skipBlanks cs with
    | ':' :: cs =>
      let (value, cs) ← item? cs
      return ((name, value), cs)
    | _ => none
  | _ => none

/-- Reads the fields of an object, up to the closing brace. There are no more of them than characters
in the first text. -/
def fields? (item? : Reader Json) : List Char → Reader (List (String × Json))
  | [], _ => none
  | _ :: fuel, cs => do
    let (field, cs) ← field? item? cs
    match skipBlanks cs with
    | ',' :: cs =>
      let (rest, cs) ← fields? item? fuel cs
      return (field :: rest, cs)
    | '\x7d' :: cs => return ([field], cs)
    | _ => none

/-- Reads an array behind its opening bracket. Each item takes a character, so the text bounds their
number. -/
def array? (item? : Reader Json) : Reader Json := fun cs =>
  match skipBlanks cs with
  | ']' :: rest => some (.array [], rest)
  | _ => (items? item? cs cs).map fun (items, rest) => (.array items, rest)

/-- Reads an object behind its opening brace. -/
def object? (item? : Reader Json) : Reader Json := fun cs =>
  match skipBlanks cs with
  | '\x7d' :: rest => some (.object [], rest)
  | _ => (fields? item? cs cs).map fun (fields, rest) => (ofFields fields, rest)

/-- Reads a value; `item?` reads what is nested in it. -/
def valueWith? (item? : Reader Json) : Reader Json := fun cs =>
  match skipBlanks cs with
  | '"' :: rest => (string? rest).map fun (s, rest) => (.string s, rest)
  | '[' :: rest => array? item? rest
  | '\x7b' :: rest => object? item? rest
  | 't' :: rest => (expect? ['r', 'u', 'e'] rest).map fun rest => (.boolean true, rest)
  | 'f' :: rest => (expect? ['a', 'l', 's', 'e'] rest).map fun rest => (.boolean false, rest)
  | 'n' :: rest => (expect? ['u', 'l', 'l'] rest).map fun rest => (.null, rest)
  | cs => (Number.read? cs).map fun (n, rest) => (.number n, rest)

/-- Reads a value with containers nested at most `depth` deep. -/
def value? : Nat → Reader Json
  | 0 => fun cs =>
    match skipBlanks cs with
    | '[' :: _ => none
    | '\x7b' :: _ => none
    | cs => valueWith? (fun _ => none) cs
  | depth + 1 => valueWith? (value? depth)

/-- How deep containers may be nested. -/
def maxDepth : Nat := 127

/-- Reads a whole text as one document, with containers nested at most `depth` deep. -/
def parseWithin? (depth : Nat) (text : String) : Option Json :=
  match value? depth text.toList with
  | some (value, rest) => if (skipBlanks rest).isEmpty then some value else none
  | none => none

/-- Reads a whole text as one document. -/
def parse? (text : String) : Option Json :=
  parseWithin? maxDepth text

end Attestation.Json
