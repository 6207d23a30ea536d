import Attestation.Source.Span
import Attestation.Text.Utf8

/-!
# Sources and their lines

A source is a named text. Its line index lists the byte offsets at which lines start, closed by the
length of the text unless that is listed already. A source map numbers the sources of a compilation
in the order in which they were added. It has room for a fixed number of them.
-/

namespace Attestation

open Text

/-- A named text. -/
structure SourceText where
  name : String
  text : String
  deriving DecidableEq, Repr

namespace SourceText

/-- The offsets behind each line break of a text that starts at `offset`. -/
def lineBreaks (offset : Nat) : List Char → List Nat
  | [] => []
  | c :: cs =>
    let next := offset + c.utf8Size
    if c = '\n' then next :: lineBreaks next cs else lineBreaks next cs

/-- The number of bytes of the text. -/
def size (source : SourceText) : Nat :=
  byteLength source.text.toList

/-- The line index. -/
def lineStarts (source : SourceText) : List Nat :=
  let starts := 0 :: lineBreaks 0 source.text.toList
  if starts.getLast? = some source.size then starts else starts ++ [source.size]

/-- The line and the column of a byte offset, both counted from one. The line is that of the last
entry of the line index at or before the offset; an offset behind the end counts as the end. -/
def lineCol (source : SourceText) (offset : Nat) : Nat × Nat :=
  let place := min offset source.size
  let reached := source.lineStarts.takeWhile (· ≤ place)
  (reached.length, place - reached.getLastD 0 + 1)

/-- A text without the line breaks it ends in. -/
def trimBreaks (cs : List Char) : List Char :=
  (cs.reverse.dropWhile fun c => c = '\n' || c = '\r').reverse

/-- The text of a line, counted from one, without its line break. -/
def line? (source : SourceText) (line : Nat) : Option String :=
  match line with
  | 0 => none
  | index + 1 => do
    let start ← source.lineStarts[index]?
    let stop ← source.lineStarts[index + 1]?
    let cs ← slice? start stop source.text.toList
    return String.ofList (trimBreaks cs)

/-- The text between two byte offsets, empty if there is none. -/
def snippet (source : SourceText) (start stop : Nat) : String :=
  String.ofList ((slice? start stop source.text.toList).getD [])

end SourceText

/-- The sources of a compilation, by number. -/
abbrev SourceMap := Array SourceText

namespace SourceMap

/-- How many sources there is room for. Their numbers have 16 bits, and the greatest is not used. -/
def capacity : Nat := 65535

/-- Adds a source, if there is room; its number is the number of sources before it. -/
def add? (sources : SourceMap) (name text : String) : Option SourceMap :=
  if sources.size < capacity then some (sources.push ⟨name, text⟩) else none

/-- The source a position points into. -/
def source? (sources : SourceMap) (p : Position) : Option SourceText :=
  sources[p.source]?

end SourceMap

end Attestation
