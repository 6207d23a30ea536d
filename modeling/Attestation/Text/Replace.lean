/-!
# Replacing every occurrence of a text

Occurrences are found from left to right and do not overlap; what is put in is not searched again.
-/

namespace Attestation.Text

/-- Copies a text, putting `replacement` in place of each `pattern`; the first `skip` characters
belong to an occurrence that is already replaced. -/
def replaceFrom (pattern replacement : List Char) : Nat → List Char → List Char
  | _, [] => []
  | skip + 1, _ :: cs => replaceFrom pattern replacement skip cs
  | 0, c :: cs =>
    if pattern.isPrefixOf (c :: cs) then
      replacement ++ replaceFrom pattern replacement (pattern.length - 1) cs
    else c :: replaceFrom pattern replacement 0 cs

/-- Puts `replacement` in place of each occurrence of a nonempty `pattern`. -/
def replaceAll (pattern replacement text : String) : String :=
  String.ofList (replaceFrom pattern.toList replacement.toList 0 text.toList)

end Attestation.Text
