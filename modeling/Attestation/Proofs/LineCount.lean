import Attestation.Proofs.LineIndex
import Mathlib.Data.List.DropRight

/-!
# Lines and columns, counted in bytes

The line of an offset is one more than the line breaks before it, and its column one more than the
bytes since the last of them (`SourceText.lineAt`, `SourceText.columnAt`). This is said of the bytes
of the text alone. The look-up through the line index agrees with it at every offset but one
(`SourceText.lineCol?_eq_place`): the index closes with the end of the text, which is taken for the
start of a line even if the last line is still open there.
-/

namespace Attestation

open Text

/-! ## Line breaks among bytes -/

namespace Text

/-- The offsets behind each line break of bytes that start at `offset`. -/
def byteBreaks (offset : Nat) : List UInt8 → List Nat
  | [] => []
  | b :: bs =>
    if b = 10 then (offset + 1) :: byteBreaks (offset + 1) bs else byteBreaks (offset + 1) bs

theorem byteBreaks_append (offset : Nat) (bs rest : List UInt8) :
    byteBreaks offset (bs ++ rest) =
      byteBreaks offset bs ++ byteBreaks (offset + bs.length) rest := by
  induction bs generalizing offset with
  | nil => rfl
  | cons b bs ih =>
    have hlength : offset + (b :: bs).length = offset + 1 + bs.length := by
      rw [List.length_cons]
      omega
    rw [List.cons_append, byteBreaks, byteBreaks, ih, hlength]
    split_ifs <;> rfl

theorem byteBreaks_eq_nil {offset : Nat} {bs : List UInt8} (h : 10 ∉ bs) :
    byteBreaks offset bs = [] := by
  induction bs generalizing offset with
  | nil => rfl
  | cons b bs ih =>
    rw [List.mem_cons, not_or] at h
    obtain ⟨hb, hbs⟩ := h
    rw [byteBreaks, if_neg (Ne.symm hb), ih hbs]

theorem length_byteBreaks (offset : Nat) (bs : List UInt8) :
    (byteBreaks offset bs).length = bs.count 10 := by
  induction bs generalizing offset with
  | nil => rfl
  | cons b bs ih =>
    rw [byteBreaks]
    split_ifs with hb
    · rw [hb, List.count_cons_self, List.length_cons, ih]
    · rw [List.count_cons_of_ne hb, ih]

theorem lt_and_le_of_mem_byteBreaks {offset n : Nat} {bs : List UInt8}
    (h : n ∈ byteBreaks offset bs) : offset < n ∧ n ≤ offset + bs.length := by
  induction bs generalizing offset with
  | nil => cases h
  | cons b bs ih =>
    rw [byteBreaks] at h
    rw [List.length_cons]
    split_ifs at h
    · rcases List.mem_cons.1 h with rfl | h
      · omega
      · have := ih h
        omega
    · have := ih h
      omega

/-- The last line break is as many bytes back as there are bytes without one at the end. -/
theorem getLastD_byteBreaks (bs : List UInt8) :
    (byteBreaks 0 bs).getLastD 0 + (bs.rtakeWhile (· ≠ 10)).length = bs.length := by
  induction bs using List.reverseRecOn with
  | nil => rfl
  | append_singleton bs b ih =>
    rw [byteBreaks_append, List.rtakeWhile_concat, List.length_append]
    by_cases hb : b = 10
    · simp [byteBreaks, hb]
    · simp only [byteBreaks, if_neg hb, List.append_nil]
      simp [hb, ← ih, Nat.add_assoc]

/-- The line breaks up to an offset are those of the bytes before it. -/
theorem takeWhile_byteBreaks (bs : List UInt8) (n : Nat) :
    (byteBreaks 0 bs).takeWhile (· ≤ n) = byteBreaks 0 (bs.take n) := by
  have hfront : ∀ k ∈ byteBreaks 0 (bs.take n), decide (k ≤ n) = true := by
    intro k hk
    have hle := (lt_and_le_of_mem_byteBreaks hk).2
    rw [List.length_take] at hle
    exact decide_eq_true (by omega)
  have hback : (byteBreaks (0 + (bs.take n).length) (bs.drop n)).takeWhile (· ≤ n) = [] := by
    rcases Nat.le_total n bs.length with hn | hn
    · rw [List.length_take, Nat.min_eq_left hn, Nat.zero_add]
      refine List.takeWhile_eq_nil_iff.2 fun hpos => ?_
      have hlt := (lt_and_le_of_mem_byteBreaks (List.getElem_mem hpos)).1
      simpa using hlt
    · rw [List.drop_eq_nil_of_le hn]
      rfl
  conv_lhs => rw [← List.take_append_drop n bs, byteBreaks_append]
  rw [List.takeWhile_append_of_pos hfront, hback, List.append_nil]

/-- Of all characters only the line break has its byte. -/
theorem mem_utf8EncodeChar_iff {c : Char} : 10 ∈ String.utf8EncodeChar c ↔ c = '\n' := by
  have hc : c = '\n' ↔ c.val.toNat = 10 := by
    rw [← Char.toNat_inj]
    rfl
  have hbyte : ∀ n : Nat, (10 : UInt8) = UInt8.ofNat n ↔ n % 256 = 10 := by
    intro n
    rw [← UInt8.toNat_inj, UInt8.toNat_ofNat', eq_comm]
    rfl
  rw [hc]
  unfold String.utf8EncodeChar
  generalize c.val.toNat = v
  dsimp only
  split_ifs <;> simp only [List.mem_cons, List.not_mem_nil, or_false, hbyte] <;> omega

/-- The line breaks of a text are those of its bytes. -/
theorem lineBreaks_eq (offset : Nat) (cs : List Char) :
    SourceText.lineBreaks offset cs = byteBreaks offset (bytes cs) := by
  induction cs generalizing offset with
  | nil => rfl
  | cons c cs ih =>
    have hbytes : bytes (c :: cs) = String.utf8EncodeChar c ++ bytes cs := rfl
    rw [SourceText.lineBreaks, hbytes, byteBreaks_append, String.length_utf8EncodeChar, ← ih]
    split_ifs with hc
    · subst hc
      rfl
    · rw [byteBreaks_eq_nil (mt mem_utf8EncodeChar_iff.1 hc)]
      rfl

theorem length_bytes (cs : List Char) : (bytes cs).length = byteLength cs := by
  induction cs with
  | nil => rfl
  | cons c cs ih =>
    have hbytes : bytes (c :: cs) = String.utf8EncodeChar c ++ bytes cs := rfl
    rw [hbytes, List.length_append, String.length_utf8EncodeChar, ih, byteLength]

end Text

/-! ## Places -/

namespace SourceText

variable (source : SourceText)

/-- The bytes before an offset. An offset behind the end counts as the end. -/
def bytesBefore (offset : Nat) : List UInt8 :=
  (bytes source.text.toList).take offset

/-- The line of an offset: one more than the line breaks before it. -/
def lineAt (offset : Nat) : Nat :=
  1 + (source.bytesBefore offset).count 10

/-- The column of an offset: one more than the bytes since the last line break before it, or since
the start of the text. -/
def columnAt (offset : Nat) : Nat :=
  1 + ((source.bytesBefore offset).rtakeWhile (· ≠ 10)).length

/-- Whether the text ends within a line, behind a byte that is no line break. -/
def endsOpen : Bool :=
  (bytes source.text.toList).getLast?.any (· ≠ 10)

theorem length_bytesBefore (offset : Nat) :
    (source.bytesBefore offset).length = min offset source.size := by
  rw [bytesBefore, List.length_take, length_bytes]
  rfl

theorem bytesBefore_min (offset : Nat) :
    source.bytesBefore (min offset source.size) = source.bytesBefore offset := by
  rw [bytesBefore, bytesBefore, size, ← length_bytes]
  exact List.take_eq_take_min.symm

theorem bytesBefore_of_le {offset : Nat} (h : source.size ≤ offset) :
    source.bytesBefore offset = bytes source.text.toList := by
  rw [size, ← length_bytes] at h
  exact List.take_of_length_le h

theorem endsOpen_iff : source.endsOpen = true ↔
    (bytes source.text.toList).rtakeWhile (· ≠ 10) ≠ [] := by
  rw [endsOpen, ne_eq, List.rtakeWhile_eq_nil_iff]
  generalize bytes source.text.toList = bs
  cases bs using List.reverseRecOn <;> simp

/-- The line index closes with the end of the text where that is within a line. -/
theorem lineStarts_eq : source.lineStarts =
    0 :: byteBreaks 0 (bytes source.text.toList) ++
      if source.endsOpen = true then [source.size] else [] := by
  have hlast := getLastD_byteBreaks (bytes source.text.toList)
  rw [length_bytes] at hlast
  have hclosed : (0 :: byteBreaks 0 (bytes source.text.toList)).getLast? = some source.size ↔
      ¬ source.endsOpen = true := by
    rw [endsOpen_iff, not_not, ← List.length_eq_zero_iff, List.getLast?_cons, Option.some.injEq,
      ← List.getLastD_eq_getLast?]
    change _ = byteLength source.text.toList ↔ _
    omega
  rw [lineStarts, lineBreaks_eq]
  simp only [hclosed]
  by_cases hopen : source.endsOpen = true <;> simp [hopen]

/-- Before the end of a text that is open there, the entries up to an offset are the start and what
is behind the line breaks before it. -/
theorem takeWhile_lineStarts {offset : Nat}
    (h : ¬ (source.endsOpen = true ∧ source.size ≤ offset)) :
    source.lineStarts.takeWhile (· ≤ min offset source.size) =
      0 :: byteBreaks 0 (source.bytesBefore offset) := by
  have hstarts : (0 :: byteBreaks 0 (bytes source.text.toList)).takeWhile
      (· ≤ min offset source.size) = 0 :: byteBreaks 0 (source.bytesBefore offset) := by
    rw [List.takeWhile_cons_of_pos (by simp), takeWhile_byteBreaks, ← bytesBefore_min]
    rfl
  rw [lineStarts_eq, ← hstarts]
  split_ifs with hopen
  · have hoffset : ¬ source.size ≤ offset := fun hle => h ⟨hopen, hle⟩
    have hend : [source.size].takeWhile (· ≤ min offset source.size) = [] := by
      refine List.takeWhile_cons_of_neg ?_
      rw [decide_eq_true_eq]
      omega
    rw [List.takeWhile_append, hend]
    split_ifs with hall
    · rw [(List.takeWhile_prefix _).eq_of_length hall, List.append_nil]
    · rfl
  · rw [List.append_nil]

/-- **The line index tells lines and columns**, but for the end of a text that is open there. -/
theorem lineCol_eq_place (offset : Nat) : source.lineCol offset =
    if source.endsOpen = true ∧ source.size ≤ offset then (source.lineAt offset + 1, 1)
    else (source.lineAt offset, source.columnAt offset) := by
  have hlength := source.length_bytesBefore offset
  have hlast := getLastD_byteBreaks (source.bytesBefore offset)
  unfold lineCol
  dsimp only
  split_ifs with h
  · -- all entries are reached, the last of them being the end
    obtain ⟨hopen, hend⟩ := h
    have hall : ∀ n ∈ source.lineStarts, decide (n ≤ source.size) = true :=
      fun n hn => decide_eq_true (source.boundary_of_mem_lineStarts hn).le
    rw [Nat.min_eq_right hend, List.takeWhile_eq_self_iff.2 hall, lineStarts_eq, if_pos hopen,
      List.getLastD_concat, Nat.sub_self, lineAt, source.bytesBefore_of_le hend]
    simp [length_byteBreaks, Nat.add_comm]
  · rw [source.takeWhile_lineStarts h, lineAt, columnAt, List.length_cons, length_byteBreaks,
      List.getLastD_cons]
    simp only [Prod.mk.injEq]
    omega

variable {source}

theorem one_lt_columnAt {offset : Nat} (hopen : source.endsOpen = true)
    (hend : source.size ≤ offset) : 1 < source.columnAt offset := by
  have hpos := List.length_pos_iff.2 (source.endsOpen_iff.1 hopen)
  rw [columnAt, source.bytesBefore_of_le hend]
  omega

/-- **Offsets are resolved to lines and columns.** In a source of less than 4 GiB the look-up has a
result at every offset. It is the line and the column that are counted in bytes, unless the offset
is at the end of a text that is open there, or the number of the line does not fit into a word. At
the end of such a text it is the first column of the line that would come next. -/
theorem lineCol?_eq_place (h : source.size < UInt32.size) (offset : UInt32) :
    ∃ line column, source.lineCol? offset = some (line, column) ∧
      (line.toNat = source.lineAt offset.toNat ∧ column.toNat = source.columnAt offset.toNat ↔
        ¬ (source.endsOpen = true ∧ source.size ≤ offset.toNat) ∧
          source.lineAt offset.toNat < UInt32.size) ∧
      (source.endsOpen = true → source.size ≤ offset.toNat →
        line = (source.lineAt offset.toNat + 1).toUInt32 ∧ column = 1) := by
  have hcolumn := column_lt h offset.toNat
  have hplace := source.lineCol_eq_place offset.toNat
  refine ⟨_, _, lineCol?_eq h offset, ?_⟩
  rw [hplace] at hcolumn ⊢
  split_ifs at hcolumn ⊢ with hopen
  · have hlt := one_lt_columnAt hopen.1 hopen.2
    refine ⟨iff_of_false ?_ fun hnot => hnot.1 hopen, fun _ _ => ⟨rfl, rfl⟩⟩
    rintro ⟨-, hone⟩
    rw [← hone] at hlt
    exact absurd hlt (Nat.lt_irrefl 1)
  · refine ⟨⟨fun hline => ⟨hopen, ?_⟩, fun hline => ?_⟩, fun h₁ h₂ => absurd ⟨h₁, h₂⟩ hopen⟩
    · rw [← hline.1]
      exact UInt32.toNat_lt_size _
    · exact ⟨UInt32.toNat_ofNat_of_lt' hline.2, UInt32.toNat_ofNat_of_lt' hcolumn⟩

/-- A greeting in two lines, with characters of two bytes. -/
def greeting (close : String) : SourceText :=
  ⟨"greeting", "grüß\nGott" ++ close⟩

theorem lineCol?_eq_place_greeting :
    (greeting "\n").size < UInt32.size ∧
      ∃ line column, (greeting "\n").lineCol? 9 = some (line, column) ∧ line.toNat = 2 ∧
        column.toNat = 3 := by
  have hsize : (greeting "\n").size < UInt32.size := by decide +kernel
  obtain ⟨line, column, hsome, hplace, -⟩ := lineCol?_eq_place hsize 9
  obtain ⟨hline, hcolumn⟩ := hplace.2 (by decide +kernel)
  exact ⟨hsize, line, column, hsome, hline.trans (by decide +kernel),
    hcolumn.trans (by decide +kernel)⟩

/-- **The end of a text that is open there is put on a line of its own.** -/
theorem lineCol?_greeting_ne :
    (greeting "").lineCol? 11 = some (3, 1) ∧ (greeting "").lineAt 11 = 2 ∧
      (greeting "").columnAt 11 = 5 := by
  decide +kernel

end SourceText

end Attestation
