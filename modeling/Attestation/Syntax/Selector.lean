import Attestation.Text.Decimal
import Attestation.Text.Split

/-!
# Selectors

A selector is the path from a subject to one of its values. A segment that reads as a number is a
position in a list, any other the name of a field.
-/

namespace Attestation

open Text

/-- A path of segments. -/
structure Selector where
  segments : List String
  deriving DecidableEq, Repr

/-- What a segment asks for. -/
inductive Step where
  | field (name : String)
  | index (position : Nat)
  deriving DecidableEq, Repr

namespace Selector

/-- The selector a dotted text stands for; the empty text has no segments. -/
def ofText (text : String) : Selector :=
  if text.isEmpty then ⟨[]⟩ else ⟨(splitOn '.' text.toList).map String.ofList⟩

/-- The segments joined by dots. -/
def text (selector : Selector) : String :=
  String.intercalate "." selector.segments

/-- What a segment asks for. -/
def step (segment : String) : Step :=
  match Decimal.readIndex? segment with
  | some position => .index position
  | none => .field segment

/-- The steps of the path. -/
def steps (selector : Selector) : List Step :=
  selector.segments.map step

/-- The path with one more segment. -/
def append (selector : Selector) (segment : String) : Selector :=
  ⟨selector.segments ++ [segment]⟩

end Selector

end Attestation
