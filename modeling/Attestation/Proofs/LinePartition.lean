import Attestation.Proofs.LineIndex
import Attestation.Text.Lines
import Mathlib.Data.List.DropRight

/-!
# The line index divides the text

The lines of a text, each with the break that ends it, make up the text (`Text.lines`). The line
index lists where they start and where the last of them ends (`SourceText.lineStarts_eq_offsets`), so
that the texts between its entries are the lines, and looking one up gives it without its break:
`SourceText.index_divides`.
-/

namespace Attestation

open Text

namespace Text

/-! ## Lines -/

theorem flatten_lines (cs : List Char) : (lines cs).flatten = cs := by
  fun_induction lines cs with
  | case1 => rfl
  | case2 cs ih => rw [List.flatten_cons, ih, List.singleton_append]
  | case3 c cs _ hlines ih =>
    rw [hlines, List.flatten_nil] at ih
    rw [← ih]
    rfl
  | case4 c cs _ line rest hlines ih =>
    rw [hlines, List.flatten_cons] at ih
    rw [List.flatten_cons, List.cons_append, ih]

theorem nil_notMem_lines (cs : List Char) : [] ∉ lines cs := by
  fun_induction lines cs with
  | case1 => simp
  | case2 cs ih => simpa using ih
  | case3 => simp
  | case4 c cs _ line rest hlines ih =>
    rw [hlines] at ih
    simp_all

/-- A line has no break before its last character. -/
theorem newline_notMem_dropLast {cs line : List Char} (h : line ∈ lines cs) :
    '\n' ∉ line.dropLast := by
  fun_induction lines cs generalizing line with
  | case1 => cases h
  | case2 cs ih =>
    rcases List.mem_cons.1 h with rfl | h
    · simp
    · exact ih h
  | case3 c cs _ _ _ => simp [List.mem_singleton.1 h]
  | case4 c cs hc first rest hlines ih =>
    rw [hlines] at ih
    rcases List.mem_cons.1 h with rfl | h
    · have hfirst : first ≠ [] := fun hnil => nil_notMem_lines cs (by simp [hlines, hnil])
      rw [List.dropLast_cons_of_ne_nil hfirst, List.mem_cons, not_or]
      exact ⟨Ne.symm hc, ih List.mem_cons_self⟩
    · exact ih (List.mem_cons_of_mem _ h)

/-- Every line but the last ends in a break. -/
theorem getLast?_of_mem_dropLast {cs line : List Char} (h : line ∈ (lines cs).dropLast) :
    line.getLast? = some '\n' := by
  fun_induction lines cs generalizing line with
  | case1 => cases h
  | case2 cs ih =>
    by_cases hnil : lines cs = []
    · simp [hnil] at h
    · rw [List.dropLast_cons_of_ne_nil hnil] at h
      rcases List.mem_cons.1 h with rfl | h
      · rfl
      · exact ih h
  | case3 => cases h
  | case4 c cs hc first rest hlines ih =>
    by_cases hnil : rest = []
    · simp [hnil] at h
    · rw [hlines, List.dropLast_cons_of_ne_nil hnil] at ih
      rw [List.dropLast_cons_of_ne_nil hnil] at h
      rcases List.mem_cons.1 h with rfl | h
      · have hfirst : first ≠ [] := fun hnil => nil_notMem_lines cs (by simp [hlines, hnil])
        rw [List.getLast?_cons_of_ne_nil hfirst, ih List.mem_cons_self]
      · exact ih (List.mem_cons_of_mem _ h)

theorem length_lines_le (cs : List Char) : (lines cs).length ≤ byteLength cs := by
  fun_induction lines cs with
  | case1 => exact Nat.le_refl 0
  | case2 cs ih =>
    have hpos := '\n'.utf8Size_pos
    rw [List.length_cons, byteLength]
    omega
  | case3 c cs _ hlines ih =>
    have hpos := c.utf8Size_pos
    rw [List.length_singleton, byteLength]
    omega
  | case4 c cs _ line rest hlines ih =>
    rw [hlines, List.length_cons] at ih
    rw [List.length_cons, byteLength]
    omega

/-! ## Offsets -/

/-- The offsets at which texts in a row start, the first of them at `offset`, and the one at which
the last of them ends. -/
def offsets (offset : Nat) : List (List Char) → List Nat
  | [] => [offset]
  | part :: rest => offset :: offsets (offset + byteLength part) rest

/-- The texts between consecutive offsets, if all of them can be cut out. -/
def cut? (cs : List Char) : List Nat → Option (List (List Char))
  | start :: stop :: rest => do
    let part ← slice? start stop cs
    let parts ← cut? cs (stop :: rest)
    return part :: parts
  | _ => some []

theorem exists_offsets_eq (offset : Nat) (parts : List (List Char)) :
    ∃ rest, offsets offset parts = offset :: rest := by
  cases parts with
  | nil => exact ⟨_, rfl⟩
  | cons part rest => exact ⟨_, rfl⟩

/-- **Texts in a row are cut out between their offsets.** -/
theorem cut?_offsets (front : List Char) (parts : List (List Char)) :
    cut? (front ++ parts.flatten) (offsets (byteLength front) parts) = some parts := by
  induction parts generalizing front with
  | nil => rfl
  | cons part rest ih =>
    have hrest := ih (front ++ part)
    rw [List.append_assoc, byteLength_append] at hrest
    obtain ⟨later, hlater⟩ := exists_offsets_eq (byteLength front + byteLength part) rest
    rw [List.flatten_cons, offsets, hlater, cut?, ← hlater, hrest, slice?_append]
    rfl

/-- The texts that are cut out, one by one. -/
theorem getElem?_of_cut? {cs : List Char} {starts : List Nat} {parts : List (List Char)}
    (h : cut? cs starts = some parts) (i : Nat) :
    parts[i]? = starts[i]?.bind fun start =>
      starts[i + 1]?.bind fun stop => slice? start stop cs := by
  fun_induction cut? cs starts generalizing parts i with
  | case1 start stop rest ih =>
    obtain ⟨part, hpart, h⟩ := Option.bind_eq_some_iff.1 h
    obtain ⟨others, hothers, h⟩ := Option.bind_eq_some_iff.1 h
    cases h
    cases i with
    | zero => simp [hpart]
    | succ i => simpa using ih hothers i
  | case2 starts hshort =>
    cases h
    have hend : starts[i + 1]? = none := by
      match starts, hshort with
      | [], _ => rfl
      | [start], _ => rfl
      | start :: stop :: rest, hshort => exact absurd rfl (hshort start stop rest)
    cases starts[i]? <;> simp [hend]

/-- Entries closed by the end of the text, unless that is the last of them already. -/
def closeWith (starts : List Nat) (stop : Nat) : List Nat :=
  if starts.getLast? = some stop then starts else starts ++ [stop]

theorem closeWith_singleton {start stop : Nat} (h : start < stop) :
    closeWith [start] stop = [start, stop] := by
  rw [closeWith, if_neg (by simpa using Nat.ne_of_lt h)]
  rfl

theorem closeWith_cons_cons (first next : Nat) (rest : List Nat) (stop : Nat) :
    closeWith (first :: next :: rest) stop = first :: closeWith (next :: rest) stop := by
  rw [closeWith, closeWith, List.getLast?_cons_cons]
  split_ifs <;> rfl

/-- **The line index lists the offsets of lines.** -/
theorem closeWith_lineBreaks (offset : Nat) (cs : List Char) :
    closeWith (offset :: SourceText.lineBreaks offset cs) (offset + byteLength cs) =
      offsets offset (lines cs) := by
  fun_induction lines cs generalizing offset with
  | case1 => simp [SourceText.lineBreaks, closeWith, byteLength, offsets]
  | case2 cs ih =>
    rw [SourceText.lineBreaks, byteLength, ← Nat.add_assoc]
    simp only [if_true]
    rw [closeWith_cons_cons, ih, offsets]
    rfl
  | case3 c cs hc hlines ih =>
    have hnil : cs = [] := by rw [← flatten_lines cs, hlines, List.flatten_nil]
    subst hnil
    have hpos := c.utf8Size_pos
    rw [SourceText.lineBreaks, SourceText.lineBreaks, if_neg hc, byteLength, byteLength,
      closeWith_singleton (by omega), offsets, offsets, byteLength, byteLength]
  | case4 c cs hc line rest hlines ih =>
    have hpos := c.utf8Size_pos
    have hlater := ih (offset + c.utf8Size)
    rw [hlines, offsets] at hlater
    rw [SourceText.lineBreaks, offsets, byteLength, byteLength, ← Nat.add_assoc, ← Nat.add_assoc]
    simp only [if_neg hc]
    -- Behind its first entry the index is the one of the text behind `c`, as `c` ends no line.
    cases hbreaks : SourceText.lineBreaks (offset + c.utf8Size) cs with
    | nil =>
      have hcs : 0 < byteLength cs := by
        have := length_lines_le cs
        rw [hlines, List.length_cons] at this
        omega
      rw [hbreaks, closeWith_singleton (by omega)] at hlater
      rw [closeWith_singleton (by omega), ← (List.cons.inj hlater).2]
    | cons next breaks =>
      rw [hbreaks, closeWith_cons_cons] at hlater
      rw [closeWith_cons_cons, (List.cons.inj hlater).2]

/-! ## Divided texts -/

/-- The text is the line without the breaks that it ends in. -/
def Bare (line text : List Char) : Prop :=
  ∃ breaks, line = text ++ breaks ∧ (∀ c ∈ breaks, c = '\n' ∨ c = '\r') ∧
    ∀ c ∈ text.getLast?, c ≠ '\n' ∧ c ≠ '\r'

theorem bare_trimBreaks (line : List Char) : Bare line (SourceText.trimBreaks line) := by
  let isBreak : Char → Bool := fun c => c = '\n' || c = '\r'
  have htrim : SourceText.trimBreaks line = line.rdropWhile isBreak := rfl
  refine ⟨line.rtakeWhile isBreak, ?_, fun c hc => ?_, fun c hc => ?_⟩
  · rw [htrim, List.rdropWhile_append_rtakeWhile]
  · simpa [isBreak] using List.mem_rtakeWhile_imp hc
  · rw [htrim] at hc
    obtain ⟨hne, rfl⟩ := List.mem_getLast?_eq_getLast hc
    simpa [isBreak] using List.rdropWhile_last_not isBreak line hne

/-- Parts divide a text at the entries of an index: the entries increase from zero to the end of the
text and fall between characters, the parts are what stands between them and make up the text, and
each has a line break at its end and nowhere else, but that the last may lack it. -/
structure Divides (starts : List Nat) (cs : List Char) (parts : List (List Char)) : Prop where
  increasing : starts.Pairwise (· < ·)
  first : starts.head? = some 0
  last : starts.getLast? = some (byteLength cs)
  boundary : ∀ n ∈ starts, Boundary cs n
  cut : cut? cs starts = some parts
  joined : parts.flatten = cs
  inner : ∀ part ∈ parts, '\n' ∉ part.dropLast
  ended : ∀ part ∈ parts.dropLast, part.getLast? = some '\n'

end Text

/-! ## The line index -/

namespace SourceText

variable {source : SourceText}

theorem lineStarts_eq_offsets : source.lineStarts = offsets 0 (lines source.text.toList) := by
  rw [← closeWith_lineBreaks, Nat.zero_add]
  rfl

theorem cut?_lineStarts :
    cut? source.text.toList source.lineStarts = some (lines source.text.toList) := by
  have hcut := cut?_offsets [] (lines source.text.toList)
  rw [List.nil_append, flatten_lines] at hcut
  rw [lineStarts_eq_offsets]
  exact hcut

theorem line?_succ (n : Nat) : source.line? (n + 1) =
    (lines source.text.toList)[n]?.map fun line => String.ofList (trimBreaks line) := by
  rw [getElem?_of_cut? cut?_lineStarts n, line?]
  cases source.lineStarts[n]? with
  | none => rfl
  | some start =>
    cases source.lineStarts[n + 1]? with
    | none => rfl
    | some stop =>
      simp only [Option.bind_eq_bind, Option.bind_some]
      cases slice? start stop source.text.toList <;> rfl

theorem divides_lineStarts :
    Divides source.lineStarts source.text.toList (lines source.text.toList) where
  increasing := source.pairwise_lineStarts
  first := by rw [List.head?_eq_getElem?, source.getElem?_zero_lineStarts]
  last := source.getLast?_lineStarts
  boundary := fun n hn => source.boundary_of_mem_lineStarts hn
  cut := cut?_lineStarts
  joined := flatten_lines _
  inner := fun _ => newline_notMem_dropLast
  ended := fun _ => getLast?_of_mem_dropLast

theorem toNat_index (h : source.size < UInt32.size) :
    source.index.toList.map UInt32.toNat = source.lineStarts := by
  have hword : ∀ n ∈ source.lineStarts, (UInt32.toNat ∘ Nat.toUInt32) n = id n :=
    fun n hn => toNat_of_mem_lineStarts h hn
  rw [index_eq h, List.map_map, List.map_congr_left hword, List.map_id]

/-- **The line index divides the text.** In a source of less than 4 GiB the entries of the index
divide the text into lines, and lines can be looked up by the numbers from one to the number of
lines, and by no others. What is found is the line without the breaks it ends in. -/
theorem index_divides (h : source.size < UInt32.size) :
    ∃ parts, Divides (source.index.toList.map UInt32.toNat) source.text.toList parts ∧
      parts.length < UInt32.size ∧
      ∀ line : UInt32, ∃ found, source.lineText? line = some found ∧
        (found.isSome = true ↔ 1 ≤ line.toNat ∧ line.toNat ≤ parts.length) ∧
        ∀ text ∈ found, ∃ part, parts[line.toNat - 1]? = some part ∧ Bare part text.toList := by
  refine ⟨lines source.text.toList, ?_, ?_, fun line => ⟨_, lineText?_eq h line, ?_⟩⟩
  · rw [toNat_index h]
    exact divides_lineStarts
  · exact Nat.lt_of_le_of_lt (length_lines_le _) h
  · cases line.toNat with
    | zero => simp [line?]
    | succ n =>
      rw [line?_succ, Nat.add_sub_cancel]
      constructor
      · rw [Option.isSome_map, isSome_getElem?]
        omega
      · intro text htext
        obtain ⟨part, hpart, rfl⟩ := Option.map_eq_some_iff.1 htext
        refine ⟨part, hpart, ?_⟩
        rw [String.toList_ofList]
        exact bare_trimBreaks part

/-- Two lines with an empty one between them, the last without a break. -/
def dedication : SourceText :=
  ⟨"dedication", "für\r\n\nalle"⟩

theorem index_divides_dedication :
    dedication.size < UInt32.size ∧
      Divides [0, 6, 7, 11] dedication.text.toList ["für\r\n".toList, ['\n'], "alle".toList] ∧
      (∃ text, dedication.lineText? 3 = some (some text)) ∧ dedication.lineText? 4 = some none := by
  have hsize : dedication.size < UInt32.size := by decide +kernel
  have hindex : dedication.index.toList.map UInt32.toNat = [0, 6, 7, 11] := by decide +kernel
  have hcut : cut? dedication.text.toList [0, 6, 7, 11] =
      some ["für\r\n".toList, ['\n'], "alle".toList] := by decide +kernel
  obtain ⟨parts, hdivides, -, hlines⟩ := index_divides hsize
  rw [hindex] at hdivides
  have hparts := Option.some.inj (hdivides.cut.symm.trans hcut)
  subst hparts
  obtain ⟨third, hthird, hin, -⟩ := hlines 3
  obtain ⟨fourth, hfourth, hout, -⟩ := hlines 4
  refine ⟨hsize, hdivides, ?_, ?_⟩
  · obtain ⟨text, rfl⟩ := Option.isSome_iff_exists.1 (hin.2 (by decide))
    exact ⟨text, hthird⟩
  · rw [hfourth, Option.not_isSome_iff_eq_none.1 (mt hout.1 (by decide))]

end SourceText

end Attestation
