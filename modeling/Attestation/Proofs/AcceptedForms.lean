import Attestation.Data.Accessor
import Attestation.Proofs.Outcome
import Mathlib.Data.List.Induction
import Mathlib.Tactic.SplitIfs

/-!
# Values as documents write them

A document may write an integer as a number or as decimal text, a text as it is, bytes as marked
hexadecimal text and a truth value as itself. `Json.Denotes` lists these forms with the value of
each; decimal and hexadecimal text have grammars of their own, `Numeral` and `HexText`, which know
nothing of how they are read. The main statement is that an accessor reads these forms, each as its
value, and no other: `Accessor.read_eq_ok_iff`.
-/

namespace Attestation

open Text

/-! ## Decimal text -/

/-- Digits and the number they stand for. An underscore may follow any digit. -/
inductive Numeral : List Char → Nat → Prop
  | digit {c : Char} (hc : c.isDigit = true) : Numeral [c] (c.toNat - '0'.toNat)
  | more {cs : List Char} {n : Nat} {c : Char} (h : Numeral cs n) (hc : c.isDigit = true) :
      Numeral (cs ++ [c]) (10 * n + (c.toNat - '0'.toNat))
  | gap {cs : List Char} {n : Nat} (h : Numeral cs n) : Numeral (cs ++ ['_']) n

/-- A numeral with at most one sign, and its value. -/
inductive SignedNumeral : List Char → Int → Prop
  | plain {cs : List Char} {n : Nat} (h : Numeral cs n) : SignedNumeral cs n
  | plus {cs : List Char} {n : Nat} (h : Numeral cs n) : SignedNumeral ('+' :: cs) n
  | minus {cs : List Char} {n : Nat} (h : Numeral cs n) : SignedNumeral ('-' :: cs) (-n)

theorem Numeral.exists_head {cs : List Char} {n : Nat} (h : Numeral cs n) :
    ∃ c rest, cs = c :: rest ∧ c.isDigit = true := by
  induction h with
  | @digit c hc => exact ⟨c, [], rfl, hc⟩
  | more _ _ ih =>
    obtain ⟨c, rest, rfl, hc⟩ := ih
    exact ⟨c, _, rfl, hc⟩
  | gap _ ih =>
    obtain ⟨c, rest, rfl, hc⟩ := ih
    exact ⟨c, _, rfl, hc⟩

namespace Text.Decimal

theorem readDigits?_eq_some_iff {cs : List Char} {n : Nat} :
    readDigits? cs = some n ↔
      cs ≠ [] ∧ (∀ c ∈ cs, c.isDigit = true) ∧ Nat.ofDigitChars 10 cs 0 = n := by
  unfold readDigits?
  split_ifs with h
  · simp only [Bool.or_eq_true, List.isEmpty_iff, List.any_eq_true, Bool.not_eq_true'] at h
    refine iff_of_false (by simp) ?_
    rintro ⟨hne, hdigits, -⟩
    rcases h with rfl | ⟨c, hc, hno⟩
    · exact hne rfl
    · rw [hdigits c hc] at hno
      cases hno
  · simp only [Bool.or_eq_true, List.isEmpty_iff, List.any_eq_true, Bool.not_eq_true', not_or,
      not_exists, not_and, Bool.not_eq_false] at h
    simp only [Option.some.injEq]
    exact ⟨fun hn => ⟨h.1, h.2, hn⟩, fun hn => hn.2.2⟩

theorem readGrouped?_eq_some_iff {cs : List Char} {n : Nat} :
    readGrouped? cs = some n ↔ cs.head? ≠ some '_' ∧ cs.filter (· ≠ '_') ≠ [] ∧
      (∀ c ∈ cs.filter (· ≠ '_'), c.isDigit = true) ∧
        Nat.ofDigitChars 10 (cs.filter (· ≠ '_')) 0 = n := by
  unfold readGrouped?
  split_ifs with h
  · exact iff_of_false (by simp) fun hno => hno.1 h
  · rw [readDigits?_eq_some_iff]
    exact ⟨fun hread => ⟨h, hread⟩, fun hread => hread.2⟩

theorem ne_underscore_of_isDigit {c : Char} (hc : c.isDigit = true) : c ≠ '_' := by
  rintro rfl
  cases hc

theorem readGrouped?_of_numeral {cs : List Char} {n : Nat} (h : Numeral cs n) :
    readGrouped? cs = some n := by
  obtain ⟨c, rest, hcs, hc⟩ := h.exists_head
  have hhead : cs.head? ≠ some '_' := by simp [hcs, ne_underscore_of_isDigit hc]
  have hne : cs.filter (· ≠ '_') ≠ [] := by simp [hcs, ne_underscore_of_isDigit hc]
  refine readGrouped?_eq_some_iff.2 ⟨hhead, hne, ?_⟩
  clear hhead hne hcs hc
  induction h with
  | digit hc => simp [ne_underscore_of_isDigit hc, hc, Nat.ofDigitChars]
  | more _ hc ih =>
    simp only [List.filter_append, List.forall_mem_append, Nat.ofDigitChars_append, ih.2]
    exact ⟨⟨ih.1, by simp [hc]⟩, by simp [ne_underscore_of_isDigit hc, Nat.ofDigitChars]⟩
  | gap _ ih => simpa using ih

theorem numeral_of_readGrouped? {cs : List Char} {n : Nat} (h : readGrouped? cs = some n) :
    Numeral cs n := by
  -- The value is built from the left, so the last character is taken off first.
  induction cs using List.reverseRecOn generalizing n with
  | nil => cases h
  | append_singleton cs c ih =>
    obtain ⟨hhead, hne, hdigits, hvalue⟩ := readGrouped?_eq_some_iff.1 h
    rw [List.filter_append, List.forall_mem_append] at hdigits
    rw [List.filter_append, Nat.ofDigitChars_append] at hvalue
    cases cs with
    | nil =>
      have hc : c ≠ '_' := by simpa using hhead
      have hvalue : c.toNat - '0'.toNat = n := by simpa [hc, Nat.ofDigitChars] using hvalue
      exact hvalue ▸ .digit (hdigits.2 c (by simp [hc]))
    | cons d rest =>
      have hd : d ≠ '_' := by simpa using hhead
      have hread : readGrouped? (d :: rest) =
          some (Nat.ofDigitChars 10 ((d :: rest).filter (· ≠ '_')) 0) :=
        readGrouped?_eq_some_iff.2 ⟨by simpa using hd, by simp [hd], hdigits.1, rfl⟩
      by_cases hc : c = '_'
      · subst hc
        have hvalue : Nat.ofDigitChars 10 ((d :: rest).filter (· ≠ '_')) 0 = n := by
          simpa [Nat.ofDigitChars_nil] using hvalue
        exact .gap (ih (hvalue ▸ hread))
      · have hvalue : 10 * Nat.ofDigitChars 10 ((d :: rest).filter (· ≠ '_')) 0 +
            (c.toNat - '0'.toNat) = n := by
          rw [← hvalue]
          simp [hc, Nat.ofDigitChars_cons, Nat.ofDigitChars_nil]
        exact hvalue ▸ .more (ih hread) (hdigits.2 c (by simp [hc]))

/-- **Numerals with a sign are the texts that are read as integers.** -/
theorem readInteger?_eq_some_iff {text : String} {n : Int} :
    readInteger? text = some n ↔ SignedNumeral text.toList n := by
  have hgrouped : ∀ {cs : List Char} {n : Nat}, readGrouped? cs = some n ↔ Numeral cs n :=
    ⟨numeral_of_readGrouped?, readGrouped?_of_numeral⟩
  -- A numeral starts with a digit, so a sign is never part of one.
  have hsign : ∀ {c : Char} {cs : List Char} {n : Nat}, c.isDigit = false →
      ¬ Numeral (c :: cs) n := by
    intro c cs n hc h
    obtain ⟨d, rest, hcs, hd⟩ := h.exists_head
    rw [(List.cons.inj hcs).1, hd] at hc
    cases hc
  unfold readInteger?
  constructor
  · intro h
    split at h
    case h_1 cs hcs =>
      obtain ⟨_, hbind, rfl⟩ := Option.map_eq_some_iff.1 h
      obtain ⟨m, hm, ⟨⟩⟩ := Option.bind_eq_some_iff.1 hbind
      exact hcs ▸ .minus (hgrouped.1 hm)
    case h_2 cs hcs =>
      obtain ⟨m, hm, rfl⟩ := Option.map_eq_some_iff.1 h
      exact hcs ▸ .plus (hgrouped.1 hm)
    case h_3 =>
      obtain ⟨m, hm, rfl⟩ := Option.map_eq_some_iff.1 h
      exact .plain (hgrouped.1 hm)
  · intro h
    generalize text.toList = cs at h ⊢
    cases h with
    | plain h =>
      split
      case h_1 => exact absurd h (hsign rfl)
      case h_2 => exact absurd h (hsign rfl)
      case h_3 => rw [hgrouped.2 h]; rfl
    | plus h =>
      simp only [hgrouped.2 h]
      rfl
    | minus h =>
      simp only [hgrouped.2 h]
      rfl

end Text.Decimal

/-! ## Hexadecimal text -/

/-- The value of a hexadecimal digit of either case. -/
def hexValue? (c : Char) : Option Nat :=
  "0123456789abcdef".toList.idxOf? c.toLower

/-- Pairs of digits and the bytes they stand for, the high half first. -/
inductive HexText : List Char → List UInt8 → Prop
  | nil : HexText [] []
  | cons {high low : Char} {h l : Nat} {cs : List Char} {data : List UInt8}
      (hhigh : hexValue? high = some h) (hlow : hexValue? low = some l) (hrest : HexText cs data) :
      HexText (high :: low :: cs) (UInt8.ofNat (16 * h + l) :: data)

theorem hexValue?_eq_none {c : Char} (h : 127 < c.toNat) : hexValue? c = none := by
  have hlower : c.toLower = c := by
    unfold Char.toLower
    rw [dif_neg]
    rintro ⟨-, hz⟩
    have : c.toNat ≤ 90 := hz
    omega
  rw [hexValue?, hlower, List.idxOf?_eq_none_iff]
  intro hmem
  have hsmall : ∀ d ∈ "0123456789abcdef".toList, d.toNat ≤ 127 := by simp
  have := hsmall c hmem
  omega

namespace Text.Hex

theorem digit?_ascii (n : Fin 128) :
    digit? (UInt8.ofNat n) = (hexValue? (Char.ofNat n)).map UInt8.ofNat := by
  revert n
  decide

theorem digit?_eq_none {byte : UInt8} (h : 192 ≤ byte.toNat) : digit? byte = none := by
  have hrange : ∀ low high : UInt8, high.toNat ≤ 102 → ¬ (low ≤ byte ∧ byte ≤ high) := by
    rintro low high hhigh ⟨-, hle⟩
    have := UInt8.le_iff_toNat_le.1 hle
    omega
  rw [digit?, if_neg (hrange _ _ (by decide)), if_neg (hrange _ _ (by decide)),
    if_neg (hrange _ _ (by decide))]

/-- The first byte of a character is a digit exactly if the character is one, and then it is the
only byte. -/
theorem utf8EncodeChar_digit (c : Char) : ∃ byte more, String.utf8EncodeChar c = byte :: more ∧
    digit? byte = (hexValue? c).map UInt8.ofNat ∧ (hexValue? c ≠ none → more = []) := by
  by_cases hc : c.val.toNat ≤ 127
  · refine ⟨UInt8.ofNat c.toNat, [], ?_, ?_, fun _ => rfl⟩
    · rw [String.utf8EncodeChar, if_pos hc]
      rfl
    · simpa using digit?_ascii ⟨c.toNat, Nat.lt_succ_of_le hc⟩
  · -- Any other character starts with a byte that is no digit.
    have hbyte : ∃ byte more, String.utf8EncodeChar c = byte :: more ∧ 192 ≤ byte.toNat := by
      rw [String.utf8EncodeChar, if_neg hc]
      split_ifs
      all_goals
        refine ⟨_, _, rfl, ?_⟩
        rw [UInt8.toNat_ofNat']
        omega
    obtain ⟨byte, more, hbytes, hbyte⟩ := hbyte
    rw [hexValue?_eq_none (Nat.lt_of_not_le hc)]
    exact ⟨byte, more, hbytes, digit?_eq_none hbyte, fun h => absurd rfl h⟩

/-- A digit is written as one byte, which is the same digit. -/
theorem bytes_of_hexValue? {c : Char} {n : Nat} (h : hexValue? c = some n) :
    ∃ byte, digit? byte = some (UInt8.ofNat n) ∧ ∀ cs, bytes (c :: cs) = byte :: bytes cs := by
  obtain ⟨byte, more, hbytes, hdigit, hmore⟩ := utf8EncodeChar_digit c
  obtain rfl := hmore (by simp [h])
  exact ⟨byte, by simp [hdigit, h], fun cs => by simp [bytes, hbytes]⟩

/-- Any other character starts with a byte that is no digit. -/
theorem bytes_of_hexValue?_eq_none {c : Char} (h : hexValue? c = none) (cs : List Char) :
    ∃ byte more, bytes (c :: cs) = byte :: more ∧ digit? byte = none := by
  obtain ⟨byte, more, hbytes, hdigit, -⟩ := utf8EncodeChar_digit c
  exact ⟨byte, more ++ bytes cs, by simp [bytes, hbytes], by simp [hdigit, h]⟩

theorem decodePairs_cons_cons_eq_ok_iff {offset : Nat} {high low : UInt8} {rest data : List UInt8} :
    decodePairs offset (high :: low :: rest) = .ok data ↔ ∃ h l tail, digit? high = some h ∧
      digit? low = some l ∧ decodePairs (offset + 2) rest = .ok tail ∧ data = (h * 16 + l) :: tail := by
  have hdigit : ∀ {byte value : UInt8} {offset : Nat},
      digit byte offset = .ok value ↔ digit? byte = some value := by
    intro byte value offset
    unfold digit
    cases digit? byte <;> simp
  simp only [decodePairs, bind_eq_ok_iff, hdigit]
  constructor
  · rintro ⟨h, hh, l, hl, tail, htail, ⟨⟩⟩
    exact ⟨h, l, tail, hh, hl, htail, rfl⟩
  · rintro ⟨h, l, tail, hh, hl, htail, rfl⟩
    exact ⟨h, hh, l, hl, tail, htail, rfl⟩

theorem decodePairs_ne_ok {offset : Nat} {byte : UInt8} {more data : List UInt8}
    (heven : (byte :: more).length % 2 = 0) (h : digit? byte = none) :
    decodePairs offset (byte :: more) ≠ .ok data := by
  cases more with
  | nil => simp at heven
  | cons low rest => simp [decodePairs_cons_cons_eq_ok_iff, h]

/-- **Pairs of digits are the texts that are read as bytes.** -/
theorem decodePairs_bytes_eq_ok_iff {cs : List Char} {offset : Nat} {data : List UInt8}
    (heven : (bytes cs).length % 2 = 0) :
    decodePairs offset (bytes cs) = .ok data ↔ HexText cs data := by
  match cs with
  | [] =>
    constructor
    · rintro ⟨⟩
      exact .nil
    · rintro ⟨⟩
      rfl
  | c :: rest =>
    cases hc : hexValue? c with
    | none =>
      obtain ⟨byte, more, hbytes, hdigit⟩ := bytes_of_hexValue?_eq_none hc rest
      rw [hbytes] at heven ⊢
      refine iff_of_false (decodePairs_ne_ok heven hdigit) ?_
      rintro (_ | ⟨hhigh, -, -⟩)
      simp [hc] at hhigh
    | some h =>
      obtain ⟨high, hhigh, hbytes⟩ := bytes_of_hexValue? hc
      rw [hbytes] at heven ⊢
      match rest with
      | [] => simp [bytes] at heven
      | d :: rest =>
        cases hd : hexValue? d with
        | none =>
          obtain ⟨byte, more, hbytes, hdigit⟩ := bytes_of_hexValue?_eq_none hd rest
          rw [hbytes]
          refine iff_of_false (by simp [decodePairs_cons_cons_eq_ok_iff, hdigit]) ?_
          rintro (_ | ⟨-, hlow, -⟩)
          simp [hd] at hlow
        | some l =>
          obtain ⟨low, hlow, hbytes⟩ := bytes_of_hexValue? hd
          rw [hbytes] at heven ⊢
          have hrest : (bytes rest).length % 2 = 0 := by
            simp only [List.length_cons] at heven
            omega
          have hbyte : UInt8.ofNat (16 * h + l) = UInt8.ofNat h * 16 + UInt8.ofNat l := by
            rw [UInt8.ofNat_add, UInt8.ofNat_mul, UInt8.mul_comm]
            rfl
          rw [decodePairs_cons_cons_eq_ok_iff, hhigh, hlow]
          constructor
          · rintro ⟨_, _, tail, ⟨⟩, ⟨⟩, htail, rfl⟩
            rw [← hbyte]
            exact .cons hc hd ((decodePairs_bytes_eq_ok_iff hrest).1 htail)
          · rintro (_ | ⟨hc', hd', htail⟩)
            obtain rfl := Option.some.inj (hc.symm.trans hc')
            obtain rfl := Option.some.inj (hd.symm.trans hd')
            exact ⟨_, _, _, rfl, rfl, (decodePairs_bytes_eq_ok_iff hrest).2 htail, by rw [hbyte]⟩

theorem length_bytes_of_hexText {cs : List Char} {data : List UInt8} (h : HexText cs data) :
    (bytes cs).length % 2 = 0 := by
  induction h with
  | nil => rfl
  | cons hhigh hlow _ ih =>
    obtain ⟨high, -, hbytes⟩ := bytes_of_hexValue? hhigh
    obtain ⟨low, -, hbytes'⟩ := bytes_of_hexValue? hlow
    rw [hbytes, hbytes', List.length_cons, List.length_cons]
    omega

theorem decode_eq_ok_iff {cs : List Char} {data : List UInt8} :
    decode cs = .ok data ↔ HexText cs data := by
  rw [decode]
  split_ifs with hodd
  · refine iff_of_false (by simp) fun h => ?_
    have := length_bytes_of_hexText h
    omega
  · exact decodePairs_bytes_eq_ok_iff (by omega)

end Text.Hex

/-! ## Documents -/

/-- The forms in which a document writes values of a type, with the value of each. -/
inductive Json.Denotes : Json → DataType → Literal → Prop
  | number (n : Int) : Denotes (.number (.integer n)) .integer (.integer n)
  | decimal {text : String} {n : Int} (h : SignedNumeral text.toList n) :
      Denotes (.string text) .integer (.integer n)
  | text (text : String) : Denotes (.string text) .text (.text text)
  | bytes {text : String} {mark : Char} {digits : List Char} {data : List UInt8}
      (hmark : mark = 'x' ∨ mark = 'X') (htext : text.toList = '0' :: mark :: digits)
      (h : HexText digits data) : Denotes (.string text) .bytes (.bytes data)
  | boolean (value : Bool) : Denotes (.boolean value) .boolean (.boolean value)

theorem readMarkedHex_eq_ok_iff {text : String} {data : List UInt8} :
    readMarkedHex text = .ok data ↔ ∃ mark digits, (mark = 'x' ∨ mark = 'X') ∧
      text.toList = '0' :: mark :: digits ∧ HexText digits data := by
  unfold readMarkedHex
  split
  case h_1 digits h =>
    simp only [mapError_eq_ok_iff, Hex.decode_eq_ok_iff, h, List.cons.injEq, true_and]
    exact ⟨fun hdigits => ⟨_, _, .inl rfl, ⟨rfl, rfl⟩, hdigits⟩,
      fun ⟨_, _, _, ⟨_, hrest⟩, hdigits⟩ => hrest ▸ hdigits⟩
  case h_2 digits h =>
    simp only [mapError_eq_ok_iff, Hex.decode_eq_ok_iff, h, List.cons.injEq, true_and]
    exact ⟨fun hdigits => ⟨_, _, .inr rfl, ⟨rfl, rfl⟩, hdigits⟩,
      fun ⟨_, _, _, ⟨_, hrest⟩, hdigits⟩ => hrest ▸ hdigits⟩
  case h_3 hlower hupper =>
    refine iff_of_false (by simp) ?_
    rintro ⟨mark, digits, rfl | rfl, htext, -⟩
    · exact hlower digits htext
    · exact hupper digits htext

/-- **An accessor reads the forms of a type, each as its value, and nothing else.** -/
theorem Accessor.read_eq_ok_iff {selector : Selector} {type : DataType} {entry : Json}
    {value : Literal} : read selector type entry = .ok value ↔ entry.Denotes type value := by
  constructor
  · intro h
    unfold read at h
    split at h
    case h_1 => cases h; exact .number _
    case h_2 => cases h
    case h_3 text =>
      split at h
      case h_1 n hn => cases h; exact .decimal (Decimal.readInteger?_eq_some_iff.1 hn)
      case h_2 => cases h
    case h_4 => cases h; exact .text _
    case h_5 text =>
      split at h
      case h_1 data hdata =>
        cases h
        obtain ⟨mark, digits, hmark, htext, hdigits⟩ := readMarkedHex_eq_ok_iff.1 hdata
        exact .bytes hmark htext hdigits
      case h_2 => cases h
    case h_6 => cases h; exact .boolean _
    case h_7 => cases h
  · rintro (_ | h | _ | ⟨hmark, htext, h⟩ | _)
    · rfl
    · simp only [read, Decimal.readInteger?_eq_some_iff.2 h]
    · rfl
    · simp only [read, readMarkedHex_eq_ok_iff.2 ⟨_, _, hmark, htext, h⟩]
    · rfl

end Attestation
