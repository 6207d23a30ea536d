import Attestation.Text.Decimal

/-!
# Places in a source

A span is a range of bytes in one text, as a front end reports it; nothing ties it to the length of
that text. Pinned to the number of the source the text belongs to, it is a position.
-/

namespace Attestation

open Text

/-- A range of bytes, the end not included, and the line the front end counted for its start. -/
structure Span where
  start : UInt32
  stop : UInt32
  line : UInt16
  deriving DecidableEq, Repr

/-- A span in a numbered source. -/
structure Position where
  source : Nat
  span : Span
  deriving DecidableEq, Repr

/-- The position of a span in a source. -/
def Span.pin (span : Span) (source : Nat) : Position := ⟨source, span⟩

/-- A position in short: the source and the range of bytes. -/
def Position.text (p : Position) : String :=
  s!"#{Decimal.ofNat p.source}@{Decimal.ofNat p.span.start.toNat}..{Decimal.ofNat p.span.stop.toNat}"

end Attestation
