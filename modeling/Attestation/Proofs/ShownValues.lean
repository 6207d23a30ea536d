import Attestation.Json.Reader
import Attestation.Proofs.DocumentRoundTrip
import Attestation.Proofs.Filling

/-!
# Shown values are told apart

A value is shown in the way of its type: in decimal digits, as quoted text, in hexadecimal digits
behind a mark, or as a word. The first characters tell the type, and a sealed value from all others
(`Literal.shownType?_display`). Within a type the value is read back: integers and bytes by the
readers of constants, quoted text character by character, since the way a character is written shows
where it ends (`Quoted.readChar?_escape`). So a known value shares its text with no other value,
known or sealed: `Literal.eq_of_display_eq`.
-/

namespace Attestation

open Text

namespace Text

/-! ## Pieces in a row -/

/-- **Pieces that are read back one by one are told from what follows them**, if no piece can be
read off that. -/
theorem flatMap_append_inj {α : Type} {write : α → List Char} {read? : Json.Reader α}
    (hread : ∀ a rest, read? (write a ++ rest) = some (a, rest)) {as bs : List α}
    {r r' : List Char} (hr : read? r = none) (hr' : read? r' = none)
    (h : as.flatMap write ++ r = bs.flatMap write ++ r') : as = bs ∧ r = r' := by
  induction as generalizing bs with
  | nil =>
    cases bs with
    | nil => exact ⟨rfl, h⟩
    | cons b bs =>
      rw [List.flatMap_cons, List.append_assoc] at h
      have hread' := hread b (bs.flatMap write ++ r')
      rw [← h, List.flatMap_nil, List.nil_append, hr] at hread'
      cases hread'
  | cons a as ih =>
    rw [List.flatMap_cons, List.append_assoc] at h
    have hfirst := hread a (as.flatMap write ++ r)
    cases bs with
    | nil =>
      rw [h, List.flatMap_nil, List.nil_append, hr'] at hfirst
      cases hfirst
    | cons b bs =>
      rw [h, List.flatMap_cons, List.append_assoc, hread b] at hfirst
      obtain ⟨rfl, hrest⟩ := Prod.mk.inj (Option.some.inj hfirst)
      obtain ⟨rfl, hbehind⟩ := ih hrest.symm
      exact ⟨rfl, hbehind⟩

/-! ## Hexadecimal digits -/

theorem hexValue?_digitChar : ∀ d < 16, Json.hexValue? (Nat.digitChar d) = some d := by
  decide

/-- The number that hexadecimal digits stand for. -/
def hexNumber (cs : List Char) : Nat :=
  cs.foldl (fun n c => 16 * n + (Json.hexValue? c).getD 0) 0

theorem hexNumber_toDigits (n : Nat) : hexNumber (Nat.toDigits 16 n) = n := by
  induction n using Nat.strongRecOn with
  | ind n ih =>
    by_cases hn : n < 16
    · simp [Nat.toDigits_of_lt_base hn, hexNumber, hexValue?_digitChar n hn]
    · have hlast := hexValue?_digitChar (n % 16) (Nat.mod_lt n (by decide))
      have hrest := ih (n / 16) (by omega)
      rw [hexNumber] at hrest
      rw [Nat.toDigits_of_base_le (by decide) (by omega), hexNumber, List.foldl_append, hrest]
      simp only [List.foldl_cons, List.foldl_nil, hlast, Option.getD_some]
      omega

theorem exists_digitChar_of_mem_toDigits {n : Nat} {c : Char} (h : c ∈ Nat.toDigits 16 n) :
    ∃ d < 16, c = Nat.digitChar d := by
  induction n using Nat.strongRecOn with
  | ind n ih =>
    by_cases hn : n < 16
    · rw [Nat.toDigits_of_lt_base hn, List.mem_singleton] at h
      exact ⟨n, hn, h⟩
    · rw [Nat.toDigits_of_base_le (by decide) (by omega), List.mem_append,
        List.mem_singleton] at h
      rcases h with h | h
      · exact ih (n / 16) (by omega) h
      · exact ⟨n % 16, Nat.mod_lt n (by decide), h⟩

namespace Hex

theorem utf8EncodeChar_digitChar :
    ∀ d < 16, String.utf8EncodeChar (Nat.digitChar d) = [(Nat.digitChar d).toUInt8] := by
  decide

theorem digit?_digitChar : ∀ d < 16, digit? (Nat.digitChar d).toUInt8 = some (UInt8.ofNat d) := by
  decide

/-- The digits of a byte take a byte each. -/
theorem bytes_encodeByte_append (byte : UInt8) (rest : List Char) :
    bytes (encodeByte byte ++ rest) = (Nat.digitChar (byte.toNat / 16)).toUInt8 ::
      (Nat.digitChar (byte.toNat % 16)).toUInt8 :: bytes rest := by
  have hlt := byte.toNat_lt
  simp [bytes, encodeByte, utf8EncodeChar_digitChar (byte.toNat / 16) (by omega),
    utf8EncodeChar_digitChar (byte.toNat % 16) (by omega)]

theorem length_bytes_flatMap_encodeByte (data : List UInt8) :
    (bytes (data.flatMap encodeByte)).length = 2 * data.length := by
  induction data with
  | nil => rfl
  | cons byte rest ih =>
    simp only [List.flatMap_cons, bytes_encodeByte_append, List.length_cons, ih]
    omega

theorem decodePairs_flatMap_encodeByte (offset : Nat) (data : List UInt8) :
    decodePairs offset (bytes (data.flatMap encodeByte)) = .ok data := by
  induction data generalizing offset with
  | nil => rfl
  | cons byte rest ih =>
    have hlt := byte.toNat_lt
    have hhigh := digit?_digitChar (byte.toNat / 16) (by omega)
    have hlow := digit?_digitChar (byte.toNat % 16) (by omega)
    have hbyte : UInt8.ofNat (byte.toNat / 16) * 16 + UInt8.ofNat (byte.toNat % 16) = byte := by
      rw [← UInt8.toNat_inj, UInt8.toNat_add, UInt8.toNat_mul]
      simp only [UInt8.toNat_ofNat', UInt8.toNat_ofNat]
      omega
    simp only [List.flatMap_cons, bytes_encodeByte_append, decodePairs, digit, hhigh, hlow, ih]
    exact congrArg (fun first => Except.ok (first :: rest)) hbyte

/-- **Bytes are read back from their digits.** -/
theorem decode_encode (data : List UInt8) : decode (encode data).toList = .ok data := by
  have heven : ¬ (bytes (data.flatMap encodeByte)).length % 2 = 1 := by
    rw [length_bytes_flatMap_encodeByte]
    omega
  rw [decode, encode, String.toList_ofList, if_neg heven, decodePairs_flatMap_encodeByte]

end Hex

/-! ## Quoted text -/

namespace Quoted

/-- The character that a letter behind a backslash stands for. -/
def named (c : Char) : Char :=
  if c = '0' then '\x00'
  else if c = 't' then '\t'
  else if c = 'r' then '\r'
  else if c = 'n' then '\n'
  else c

/-- Takes a character off the front of quoted text. -/
def readChar? : Json.Reader Char
  | [] => none
  | '"' :: _ => none
  | '\\' :: 'u' :: '\x7b' :: cs =>
    some (Char.ofNat (hexNumber (cs.takeWhile (· ≠ '\x7d'))), (cs.dropWhile (· ≠ '\x7d')).tail)
  | '\\' :: c :: cs => some (named c, cs)
  | c :: cs => some (c, cs)

theorem readChar?_spelledOut (c : Char) (rest : List Char) :
    readChar? (spelledOut c ++ rest) = some (c, rest) := by
  have hdigits : ∀ d ∈ Nat.toDigits 16 c.toNat, decide (d ≠ '\x7d') = true := by
    intro d hd
    obtain ⟨n, hn, rfl⟩ := exists_digitChar_of_mem_toDigits hd
    clear hd
    revert n
    decide
  simp only [spelledOut, List.cons_append, List.nil_append, List.append_assoc, readChar?]
  rw [List.takeWhile_append_of_pos hdigits, List.dropWhile_append_of_pos hdigits,
    List.takeWhile_cons_of_neg (by simp), List.dropWhile_cons_of_neg (by simp), List.append_nil,
    hexNumber_toDigits, Char.ofNat_toNat, List.tail_cons]

/-- **A character is read back from quoted text.** -/
theorem readChar?_escape (c : Char) (rest : List Char) :
    readChar? (escape '"' c ++ rest) = some (c, rest) := by
  unfold escape
  split_ifs with h0 ht hr hn hb hq hu
  · subst h0; rfl
  · subst ht; rfl
  · subst hr; rfl
  · subst hn; rfl
  · subst hb; rfl
  · subst hq; rfl
  · exact readChar?_spelledOut c rest
  · simp [readChar?, hb]

/-- **A text is told by its quoted form.** -/
theorem text_injective : Function.Injective text := by
  intro s s' h
  have hlist := congrArg String.toList h
  simp only [text, String.toList_ofList, List.cons_append, List.cons.injEq, true_and] at hlist
  exact String.toList_inj.1 (flatMap_append_inj readChar?_escape rfl rfl hlist).1

end Quoted

theorem Decimal.ofInt_injective : Function.Injective Decimal.ofInt := by
  intro m n h
  have hread := Decimal.readInteger?_ofInt m
  rw [h, Decimal.readInteger?_ofInt] at hread
  exact (Option.some.inj hread).symm

theorem Decimal.eq_minus_or_isDigit_of_mem_ofInt {n : Int} {c : Char}
    (h : c ∈ (Decimal.ofInt n).toList) : c = '-' ∨ c.isDigit = true := by
  cases n with
  | ofNat n => exact .inr (Decimal.isDigit_of_mem_ofNat h)
  | negSucc n =>
    rw [Decimal.ofInt, String.toList_append, List.mem_append] at h
    rcases h with h | h
    · exact .inl (by simpa using h)
    · exact .inr (Decimal.isDigit_of_mem_ofNat h)

end Text

/-! ## Values -/

theorem readMarkedHex_mark (data : List UInt8) :
    readMarkedHex ("0x" ++ Hex.encode data) = .ok data := by
  have htext : ("0x" ++ Hex.encode data).toList = '0' :: 'x' :: (Hex.encode data).toList := by simp
  simp only [readMarkedHex, htext, Hex.decode_encode]
  rfl

namespace Literal

/-- The type of a known value, as the first characters of its text tell it. -/
def shownType? : List Char → Option DataType
  | '"' :: _ => some .text
  | '0' :: 'x' :: _ => some .bytes
  | 't' :: _ => some .boolean
  | 'f' :: _ => some .boolean
  | '<' :: _ => none
  | _ => some .integer

theorem shownType?_ofInt (n : Int) :
    shownType? (Decimal.ofInt n).toList = some .integer := by
  have hnot : ∀ c : Char, c ≠ '-' → c.isDigit = false → c ∉ (Decimal.ofInt n).toList := by
    intro c hminus hdigit hc
    rcases Decimal.eq_minus_or_isDigit_of_mem_ofInt hc with h | h
    · exact hminus h
    · simp [hdigit] at h
  unfold shownType?
  split
  case h_1 cs h => exact absurd (by simp [h]) (hnot '"' (by decide) (by decide))
  case h_2 cs h => exact absurd (by simp [h]) (hnot 'x' (by decide) (by decide))
  case h_3 cs h => exact absurd (by simp [h]) (hnot 't' (by decide) (by decide))
  case h_4 cs h => exact absurd (by simp [h]) (hnot 'f' (by decide) (by decide))
  case h_5 cs h => exact absurd (by simp [h]) (hnot '<' (by decide) (by decide))
  case h_6 => rfl

/-- **The text of a value tells its type**, and whether the value is known. -/
theorem shownType?_display (a : Literal) :
    shownType? a.display.toList = if a.isSealed then none else some a.type := by
  cases a with
  | integer n => exact shownType?_ofInt n
  | text s => simp [display, Quoted.text, shownType?, isSealed, type]
  | bytes data => simp [display, shownType?, isSealed, type]
  | boolean b => cases b <;> rfl
  | sealed origin => simp [display, shownType?, isSealed]

/-- **A known value is told by its text**, among all values. -/
theorem eq_of_display_eq {a b : Literal} (ha : a.isSealed = false) (h : a.display = b.display) :
    a = b := by
  have hshown := shownType?_display b
  rw [← h, shownType?_display a, ha] at hshown
  cases a <;> cases b <;> simp [isSealed, type] at ha hshown
  case integer.integer m n => rw [Decimal.ofInt_injective h]
  case text.text s t => rw [Quoted.text_injective h]
  case bytes.bytes data data' =>
    have hread := readMarkedHex_mark data
    rw [show "0x" ++ Hex.encode data = "0x" ++ Hex.encode data' from h, readMarkedHex_mark] at hread
    rw [Except.ok.inj hread]
  case boolean.boolean b b' =>
    revert h
    cases b <;> cases b' <;> decide

end Literal

end Attestation
