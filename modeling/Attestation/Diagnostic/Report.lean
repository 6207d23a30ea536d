import Attestation.Diagnostic.Basic
import Attestation.Source.Index

/-!
# Reports

A report shows a diagnostic together with the line of the source it points into, underlined, and
the other places that are involved. There is no report if a position names a source that the source
map does not have, or if its line cannot be looked up.
-/

namespace Attestation

open Text

namespace Report

/-- The name, line and column of a position. -/
def place? (sources : SourceMap) (p : Position) : Option String := do
  let source ← sources.source? p
  let (line, column) ← source.lineCol? p.span.start
  return s!"{source.name}:{Decimal.ofNat line.toNat}:{Decimal.ofNat column.toNat}"

/-- A number in a column of three. -/
def lineNumber (n : Nat) : String :=
  let digits := Nat.toDigits 10 n
  String.ofList (List.replicate (3 - digits.length) ' ' ++ digits)

/-- The carets below a span that starts in a given column of a line; at least one. -/
def underline (line : String) (column : Nat) (span : Span) : String :=
  let width := span.stop.toNat - span.start.toNat
  let stop := min (column + width) (byteLength line.toList + 1)
  String.ofList
    (List.replicate (column - 1) ' ' ++ List.replicate (max (stop - column) 1) '^')

/-- The line a position is in, underlined. -/
def excerpt? (sources : SourceMap) (p : Position) : Option String := do
  let source ← sources.source? p
  let (number, column) ← source.lineCol? p.span.start
  let line? ← source.lineText? number
  return match line? with
    | none => ""
    | some line =>
      s!"   |\n{lineNumber number.toNat} | {line}\n    | {underline line column.toNat p.span}\n"

/-- The part of a report that shows where the diagnostic points. -/
def pointer? (sources : SourceMap) : Option Position → Option String
  | none => some ""
  | some p => do
    let place ← place? sources p
    let excerpt ← excerpt? sources p
    return s!"  --> {place}\n{excerpt}"

/-- The lines of a label; a label without a message has none. -/
def label? (sources : SourceMap) (label : Diagnostic.Label) : Option String :=
  if label.message.isEmpty then some ""
  else do
    let reference := match label.reference with
      | some reference => s!" ({reference.text})"
      | none => ""
    let place ← match label.position with
      | some p => (place? sources p).map fun place => s!"     at {place}\n"
      | none => some ""
    return s!"   = note: {label.message}{reference}\n{place}"

/-- The line of a hint. -/
def note (text : String) : String :=
  s!"   = help: {text}\n"

end Report

/-- The report of a diagnostic. -/
def Diagnostic.report? (sources : SourceMap) (d : Diagnostic) : Option String := do
  let pointer ← Report.pointer? sources d.position?
  let labels ← d.labels.mapM (Report.label? sources)
  return s!"{d.text}\n{pointer}{String.join labels}{String.join (d.notes.map Report.note)}"

/-- The reports of several diagnostics, a blank line between two. -/
def Diagnostic.reportAll? (sources : SourceMap) (ds : List Diagnostic) : Option String := do
  let reports ← ds.mapM (Diagnostic.report? sources)
  return String.intercalate "\n" reports

end Attestation
