/-!
# Decimal text of integers

Integers are written with the fewest digits and a minus sign where needed. Two readers accept more
than is written: `readInteger?` takes a sign and underscores between digits, `readIndex?` reads the
position of a list item, which has to fit in 64 bits.
-/

namespace Attestation.Text.Decimal

/-- The decimal text of a natural number. -/
def ofNat (n : Nat) : String :=
  String.ofList (Nat.toDigits 10 n)

/-- The decimal text of an integer. -/
def ofInt : Int → String
  | .ofNat n => ofNat n
  | .negSucc n => "-" ++ ofNat (n + 1)

/-- The number a run of digits stands for; a run has at least one digit. -/
def readDigits? (cs : List Char) : Option Nat :=
  if cs.isEmpty || cs.any (fun c => !c.isDigit) then none else some (Nat.ofDigitChars 10 cs 0)

/-- Digits with underscores among them, the first a digit. -/
def readGrouped? (cs : List Char) : Option Nat :=
  if cs.head? = some '_' then none else readDigits? (cs.filter (· ≠ '_'))

/-- An integer: at most one sign, then digits and underscores. -/
def readInteger? (text : String) : Option Int :=
  match text.toList with
  | '-' :: cs => (readGrouped? cs).map fun n => -(n : Int)
  | '+' :: cs => (readGrouped? cs).map Int.ofNat
  | cs => (readGrouped? cs).map Int.ofNat

/-- The number of positions a list item can have. -/
def indexLimit : Nat := UInt64.size

/-- A position in a list: an optional plus sign, then digits, below `indexLimit`. -/
def readIndex? (text : String) : Option Nat :=
  let digits := match text.toList with
    | '+' :: cs => cs
    | cs => cs
  (readDigits? digits).filter (· < indexLimit)

end Attestation.Text.Decimal
