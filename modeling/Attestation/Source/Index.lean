import Attestation.Source.Map

/-!
# Looking up lines

For reports, offsets, lines and columns are words of 32 bits, and the line of an offset is found by
halving the line index. Each step that can go wrong does so openly: there is no result where an entry
of the index is missing, a difference is below zero, a sum does not fit into a word or a line cannot
be cut out of the text.
-/

namespace Attestation

open Text

namespace Word

/-- The difference of two words, unless it is below zero. -/
def sub? (a b : UInt32) : Option UInt32 :=
  if b ≤ a then some (a - b) else none

/-- The sum of two words, unless it does not fit. -/
def add? (a b : UInt32) : Option UInt32 :=
  if a.toNat + b.toNat < UInt32.size then some (a + b) else none

end Word

/-- The first place from `low` to `high` at which a property is lost, found by halving. -/
def bisect (p : Nat → Bool) (low high : Nat) : Nat :=
  if low < high then
    let middle := low + (high - low) / 2
    if p middle then bisect p (middle + 1) high else bisect p low middle
  else low
termination_by high - low

namespace SourceText

/-- The line index in words. -/
def index (source : SourceText) : Array UInt32 :=
  let starts := (0 :: lineBreaks 0 source.text.toList).map Nat.toUInt32
  let stop := source.size.toUInt32
  (if starts.getLast? = some stop then starts else starts ++ [stop]).toArray

/-- The number of entries at the start of an index that are at or before an offset. -/
def reached (index : Array UInt32) (place : UInt32) : Nat :=
  bisect (fun i => index[i]?.any (· ≤ place)) 0 index.size

/-- The line and the column of a byte offset, both counted from one. -/
def lineCol? (source : SourceText) (offset : UInt32) : Option (UInt32 × UInt32) := do
  let index := source.index
  let place := min offset source.size.toUInt32
  let entry := max (reached index place) 1 - 1
  let start ← index[entry]?
  let distance ← Word.sub? place start
  let column ← Word.add? distance 1
  return ((entry + 1).toUInt32, column)

/-- The text of a line, counted from one, without its line break; no text if there is no such
line. -/
def lineText? (source : SourceText) (line : UInt32) : Option (Option String) :=
  let index := source.index
  if line = 0 ∨ index.size ≤ line.toNat then some none
  else do
    let entry ← Word.sub? line 1
    let start ← index[entry.toNat]?
    let stop ← index[entry.toNat + 1]?
    let cs ← slice? start.toNat stop.toNat source.text.toList
    return some (String.ofList (trimBreaks cs))

end SourceText

end Attestation
