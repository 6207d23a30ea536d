import Attestation.Json.Basic

/-!
# The text of numbers

A number is an optional minus sign, whole digits without leading zeros, an optional fraction and an
optional exponent. It has to be finite as a binary floating point number of 64 bits. What is
converted is the significand, the leading digits that fit in 64 bits: it is rounded to 53 bits and
multiplied by the power of ten rounded to 53 bits.
-/

namespace Attestation.Json.Number

/-- The digits of a number, as written. -/
structure Written where
  negative : Bool
  whole : List Char
  /-- The digits behind the point, if there is one. -/
  fraction : Option (List Char)
  /-- The exponent, if there is one. -/
  exponent : Option Int

/-- Splits off the leading digits; there has to be one. -/
def digits? (cs : List Char) : Option (List Char × List Char) :=
  let run := cs.takeWhile Char.isDigit
  if run.isEmpty then none else some (run, cs.dropWhile Char.isDigit)

/-- The whole digits: a zero stands alone. -/
def whole? : List Char → Option (List Char × List Char)
  | '0' :: rest => some (['0'], rest)
  | cs => digits? cs

/-- The point and the digits behind it. -/
def fraction? : List Char → Option (Option (List Char) × List Char)
  | '.' :: rest => (digits? rest).map fun (run, rest) => (some run, rest)
  | cs => some (none, cs)

/-- The digits of an exponent behind its sign. -/
def exponentDigits? : List Char → Option (Int × List Char)
  | '-' :: rest => (digits? rest).map fun (run, rest) => (-(Nat.ofDigitChars 10 run 0 : Int), rest)
  | '+' :: rest => (digits? rest).map fun (run, rest) => ((Nat.ofDigitChars 10 run 0 : Int), rest)
  | cs => (digits? cs).map fun (run, rest) => ((Nat.ofDigitChars 10 run 0 : Int), rest)

/-- The exponent with its mark. -/
def exponent? : List Char → Option (Option Int × List Char)
  | 'e' :: rest => (exponentDigits? rest).map fun (n, rest) => (some n, rest)
  | 'E' :: rest => (exponentDigits? rest).map fun (n, rest) => (some n, rest)
  | cs => some (none, cs)

/-- Splits off a number at the start of a text. -/
def written? (cs : List Char) : Option (Written × List Char) := do
  let (negative, cs) := match cs with
    | '-' :: rest => (true, rest)
    | cs => (false, cs)
  let (whole, cs) ← whole? cs
  let (behind, cs) ← fraction? cs
  let (exponent, cs) ← exponent? cs
  return (⟨negative, whole, behind, exponent⟩, cs)

/-- The largest significand. -/
def significandLimit : Nat := UInt64.size - 1

/-- Appends digits to a significand as long as it stays within its limit. The result has the
number of digits that were left out. -/
def extend (significand : Nat) : List Char → Nat × Nat
  | [] => (significand, 0)
  | c :: cs =>
    let next := significand * 10 + (c.toNat - '0'.toNat)
    if significandLimit < next then (significand, (c :: cs).length) else extend next cs

/-- The significand and the power of ten it is to be multiplied with. -/
def scaled (w : Written) : Nat × Int :=
  let (head, dropped) := extend 0 w.whole
  let behind := w.fraction.getD []
  let (significand, ignored) := extend head behind
  (significand, (dropped : Int) - ((behind.length - ignored : Nat) : Int) + w.exponent.getD 0)

/-- Rounds a natural number to 53 significant bits, a tie to the even neighbour. -/
def round53 (n : Nat) : Nat :=
  let shift := n.log2 - 52
  let unit := Nat.pow 2 shift
  let quotient := n / unit
  let remainder := n % unit
  if unit < 2 * remainder ∨ (2 * remainder = unit ∧ quotient % 2 = 1 ∧ 1 < unit) then
    (quotient + 1) * unit
  else quotient * unit

/-- The least natural number that rounds to infinity. -/
def overflowBound : Nat := Nat.pow 2 1024 - Nat.pow 2 970

/-- Whether a significand times a power of ten is finite. -/
def finite (significand : Nat) (exponent : Int) : Bool :=
  if significand = 0 ∨ exponent < 0 then true
  else if 308 < exponent then false
  else round53 significand * round53 (Nat.pow 10 exponent.toNat) < overflowBound

/-- Whether a whole number fits in a signed or an unsigned word of 64 bits. -/
def fitsWord (z : Int) : Bool :=
  -9223372036854775808 ≤ z && z < 18446744073709551616

/-- The value of a written number: whole numbers that fit in 64 bits are integers, except that a
negative zero is none. -/
def value? (w : Written) : Option Number :=
  let (significand, exponent) := scaled w
  if finite significand exponent then
    let n := Nat.ofDigitChars 10 w.whole 0
    let z : Int := if w.negative then -(n : Int) else n
    if w.fraction.isNone ∧ w.exponent.isNone ∧ ¬ (w.negative ∧ n = 0) ∧ fitsWord z then
      some (.integer z)
    else
      let behind := w.fraction.getD []
      let mantissa : Int := Nat.ofDigitChars 10 (w.whole ++ behind) 0
      some (.fraction (if w.negative then -mantissa else mantissa)
        (w.exponent.getD 0 - (behind.length : Int)))
  else none

/-- Reads a number at the start of a text. -/
def read? (cs : List Char) : Option (Number × List Char) := do
  let (w, rest) ← written? cs
  let n ← value? w
  return (n, rest)

end Attestation.Json.Number
