import Attestation.Gadget.Format
import Attestation.Json.Printer
import Attestation.Text.Lines

/-!
# Rendered statements

Every gadget becomes a line in which slots stand for its variables. Witness slots are `w0`, `w1`, …
and disclosed ones `i0`, `i1`, …, numbered by first use; variables share a slot if they agree in
visibility, in the text of their reference and in their value. Two tables give the values of the
slots, so that no value stands in the lines themselves. The lines are kept as one text, and the
document that is written to a file lists the lines of that text.
-/

namespace Attestation

open Text

/-- What variables have to share to share a slot. -/
structure SlotKey where
  visibility : Visibility
  /-- The text of the reference, if there is one. -/
  origin : Option String
  literal : Literal
  deriving DecidableEq, Repr

/-- The key of a variable. -/
def SlotKey.ofVariable (v : Variable) : SlotKey :=
  ⟨v.visibility, v.reference.map Reference.text, v.literal⟩

/-- The slots that are given out: those of keys, and the values of the slots of each visibility. -/
structure Slots where
  assigned : List (SlotKey × String)
  witness : Table Literal
  disclosed : Table Literal
  deriving DecidableEq, Repr

namespace Slots

/-- No slots. -/
def empty : Slots :=
  ⟨[], [], []⟩

/-- The letter that the slots of a visibility start with. -/
def letter : Visibility → String
  | .witness => "w"
  | .disclosed => "i"

/-- The name of a slot. -/
def name (visibility : Visibility) (number : Nat) : String :=
  letter visibility ++ Decimal.ofNat number

/-- The slots of a visibility and their values, in order. -/
def table (slots : Slots) : Visibility → Table Literal
  | .witness => slots.witness
  | .disclosed => slots.disclosed

/-- The slot of a key, if it has one. -/
def slot? (slots : Slots) (key : SlotKey) : Option String :=
  slots.assigned.lookup key

/-- Gives a key a slot. -/
def add (slots : Slots) (key : SlotKey) (slot : String) : Slots :=
  let assigned := slots.assigned ++ [(key, slot)]
  match key.visibility with
  | .witness => { slots with assigned, witness := slots.witness.insert slot key.literal }
  | .disclosed => { slots with assigned, disclosed := slots.disclosed.insert slot key.literal }

/-- The slot of a variable, a new one if its key has none yet. -/
def assign (slots : Slots) (v : Variable) : String × Slots :=
  let key := SlotKey.ofVariable v
  match slots.slot? key with
  | some slot => (slot, slots)
  | none =>
    let slot := name v.visibility (slots.table v.visibility).length
    (slot, slots.add key slot)

/-- The slots of variables, by the names they are bound to. -/
def assignAll (slots : Slots) : List (String × Variable) → List (String × String) × Slots
  | [] => ([], slots)
  | (hole, v) :: rest =>
    let (slot, slots) := slots.assign v
    let (others, slots) := slots.assignAll rest
    ((hole, slot) :: others, slots)

end Slots

/-- The lines of gadgets, and the slots after them. -/
def renderLines (slots : Slots) : List Gadget → List String × Slots
  | [] => ([], slots)
  | gadget :: rest =>
    let (texts, slots) := slots.assignAll gadget.bindings
    let (others, slots) := renderLines slots rest
    (Gadget.fillHoles gadget.template texts :: others, slots)

/-- A text of lines with slots, and the values of the slots. -/
structure Rendered where
  text : String
  witness : Table Literal
  disclosed : Table Literal
  deriving DecidableEq, Repr

/-- Renders gadgets. -/
def render (gadgets : List Gadget) : Rendered :=
  let (lines, slots) := renderLines .empty gadgets
  ⟨String.intercalate "\n" lines, slots.witness, slots.disclosed⟩

namespace Rendered

/-- The lines of the text. -/
def lines (rendered : Rendered) : List String :=
  (Text.lines rendered.text.toList).map fun line => String.ofList (withoutBreak line)

/-- A table with its values as they are shown. -/
def tableToJson (table : Table Literal) : Json :=
  .ofFields (table.map fun (slot, literal) => (slot, .string literal.display))

/-- The document with the lines and both tables. -/
def toJson (rendered : Rendered) : Json :=
  .object [("instance", tableToJson rendered.disclosed),
    ("ir", .array (rendered.lines.map .string)), ("witness", tableToJson rendered.witness)]

/-- The document as it is written to a file. -/
def document (rendered : Rendered) : String :=
  rendered.toJson.pretty

end Rendered

end Attestation
