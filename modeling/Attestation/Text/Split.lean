/-!
# Splitting texts at a separator
-/

namespace Attestation.Text

/-- The parts of a text between separators; a text without a separator is one part. -/
def splitOn (separator : Char) : List Char → List (List Char)
  | [] => [[]]
  | c :: cs =>
    if c = separator then [] :: splitOn separator cs
    else match splitOn separator cs with
      | [] => [[c]]
      | part :: rest => (c :: part) :: rest

/-- The text before the first separator and the text behind it. -/
def splitOnce? (separator : Char) : List Char → Option (List Char × List Char)
  | [] => none
  | c :: cs =>
    if c = separator then some ([], cs)
    else (splitOnce? separator cs).map fun (before, behind) => (c :: before, behind)

end Attestation.Text
