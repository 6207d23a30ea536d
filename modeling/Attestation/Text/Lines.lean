/-!
# Lines of a text

A line ends with a newline, or where the text does. What is read of it is the text before its break,
which is the newline and a carriage return before that, if there is one.
-/

namespace Attestation.Text

/-- The lines of a text, each with the break that ends it. -/
def lines : List Char → List (List Char)
  | [] => []
  | c :: cs =>
    if c = '\n' then [c] :: lines cs
    else match lines cs with
      | [] => [[c]]
      | line :: rest => (c :: line) :: rest

/-- A line without the break that ends it. -/
def withoutBreak (line : List Char) : List Char :=
  match line.reverse with
  | '\n' :: '\r' :: before => before.reverse
  | '\n' :: before => before.reverse
  | _ => line

end Attestation.Text
