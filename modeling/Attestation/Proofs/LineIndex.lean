import Attestation.Source.Index
import Mathlib.Data.List.Basic
import Mathlib.Tactic.SplitIfs

/-!
# Lines are found where they are

In a source of less than 4 GiB every look-up of a line has a result, whatever the offset or the
number of the line is, and the result is what the definition by the line index says
(`SourceText.lineCol?_eq`, `SourceText.lineText?_eq`).

Three facts about the line index carry this. Its entries increase, so that halving finds the last one
before an offset (`bisect_eq`, `SourceText.reached_eq`). Each of them falls between two characters, so
that the text between two of them can be cut out (`exists_slice?`). And the end of the text is one of
them, so that no column exceeds the size of the text.
-/

namespace Attestation

open Text

/-- **Halving finds where a property is lost**, if it is lost for good. -/
theorem bisect_eq {p : Nat → Bool} {low high k : Nat}
    (h : ∀ i, low ≤ i → i < high → (p i = true ↔ i < k)) (hlow : low ≤ k) (hhigh : k ≤ high) :
    bisect p low high = k := by
  fun_induction bisect p low high with
  | case1 low high hlt middle hp ih =>
    have hmiddle := (h middle (by omega) (by omega)).1 hp
    exact ih (fun i hi => h i (by omega)) (by omega) hhigh
  | case2 low high hlt middle hp ih =>
    have hmiddle : ¬ middle < k := fun hk => hp ((h middle (by omega) (by omega)).2 hk)
    exact ih (fun i hi hi' => h i hi (by omega)) hlow (by omega)
  | case3 low high hlt => omega

/-! ## Offsets between characters -/

namespace Text

/-- An offset falls between two characters of a text, or at an end of it. -/
def Boundary (cs : List Char) (n : Nat) : Prop :=
  ∃ front back, cs = front ++ back ∧ byteLength front = n

variable {cs : List Char}

theorem Boundary.le {n : Nat} (h : Boundary cs n) : n ≤ byteLength cs := by
  obtain ⟨front, back, rfl, rfl⟩ := h
  simp

theorem eq_nil_of_byteLength_eq_zero (h : byteLength cs = 0) : cs = [] := by
  cases cs with
  | nil => rfl
  | cons c cs =>
    have hpos := c.utf8Size_pos
    simp only [byteLength] at h
    omega

theorem dropBytes?_append (front back : List Char) :
    dropBytes? (byteLength front) (front ++ back) = some back := by
  induction front with
  | nil => cases back <;> rfl
  | cons c cs ih =>
    have hpos := c.utf8Size_pos
    obtain ⟨n, hn⟩ : ∃ n, c.utf8Size + byteLength cs = n + 1 := ⟨_, (Nat.succ_pred (by omega)).symm⟩
    rw [List.cons_append, byteLength, hn, dropBytes?, if_pos (by omega), ← hn,
      Nat.add_sub_cancel_left, ih]

theorem takeBytes?_append (front back : List Char) :
    takeBytes? (byteLength front) (front ++ back) = some front := by
  induction front with
  | nil => cases back <;> rfl
  | cons c cs ih =>
    have hpos := c.utf8Size_pos
    obtain ⟨n, hn⟩ : ∃ n, c.utf8Size + byteLength cs = n + 1 := ⟨_, (Nat.succ_pred (by omega)).symm⟩
    rw [List.cons_append, byteLength, hn, takeBytes?, if_pos (by omega), ← hn,
      Nat.add_sub_cancel_left, ih, Option.map_some]

theorem slice?_append (front middle back : List Char) :
    slice? (byteLength front) (byteLength front + byteLength middle) (front ++ (middle ++ back)) =
      some middle := by
  rw [slice?, if_pos (Nat.le_add_right _ _), dropBytes?_append, Option.bind_some,
    Nat.add_sub_cancel_left, takeBytes?_append]

/-- **A text can be cut out between two boundaries.** -/
theorem exists_slice? {start stop : Nat} (hstart : Boundary cs start) (hstop : Boundary cs stop)
    (hle : start ≤ stop) : ∃ ds, slice? start stop cs = some ds := by
  obtain ⟨front, back, rfl, rfl⟩ := hstart
  obtain ⟨front', back', heq, rfl⟩ := hstop
  have hsplit : ∃ middle, front' = front ++ middle ∧ back = middle ++ back' := by
    rcases List.append_eq_append_iff.1 heq with h | ⟨middle, rfl, rfl⟩
    · exact h
    · -- the cut lies before the start, so nothing is between them
      have hnil : middle = [] := by
        refine eq_nil_of_byteLength_eq_zero ?_
        rw [byteLength_append] at hle
        omega
      subst hnil
      exact ⟨[], by simp, by simp⟩
  obtain ⟨middle, rfl, rfl⟩ := hsplit
  refine ⟨middle, ?_⟩
  rw [byteLength_append, slice?_append]

end Text

/-! ## Words -/

theorem min_toUInt32 {a b : Nat} (ha : a < UInt32.size) (hb : b < UInt32.size) :
    min a.toUInt32 b.toUInt32 = (min a b).toUInt32 := by
  have hle : a.toUInt32 ≤ b.toUInt32 ↔ a ≤ b := by
    rw [UInt32.le_iff_toNat_le, UInt32.toNat_ofNat_of_lt' ha, UInt32.toNat_ofNat_of_lt' hb]
  change (if a.toUInt32 ≤ b.toUInt32 then a.toUInt32 else b.toUInt32) = _
  rw [Nat.min_def]
  simp only [hle]
  split_ifs <;> rfl

theorem Word.sub?_toUInt32 {a b : Nat} (ha : a < UInt32.size) (h : b ≤ a) :
    Word.sub? a.toUInt32 b.toUInt32 = some (a - b).toUInt32 := by
  have hb := UInt32.toNat_ofNat_of_lt' (Nat.lt_of_le_of_lt h ha)
  have hle : b.toUInt32 ≤ a.toUInt32 := by
    rw [UInt32.le_iff_toNat_le, UInt32.toNat_ofNat_of_lt' ha, hb]
    exact h
  rw [Word.sub?, if_pos hle, Option.some.injEq, ← UInt32.toNat_inj, UInt32.toNat_sub_of_le _ _ hle,
    UInt32.toNat_ofNat_of_lt' ha, hb,
    UInt32.toNat_ofNat_of_lt' (Nat.lt_of_le_of_lt (Nat.sub_le _ _) ha)]

theorem Word.add?_toUInt32 {a b : Nat} (h : a + b < UInt32.size) :
    Word.add? a.toUInt32 b.toUInt32 = some (a + b).toUInt32 := by
  have ha := UInt32.toNat_ofNat_of_lt' (Nat.lt_of_le_of_lt (Nat.le_add_right a b) h)
  have hb := UInt32.toNat_ofNat_of_lt' (Nat.lt_of_le_of_lt (Nat.le_add_left b a) h)
  rw [Word.add?, ha, hb, if_pos h, Option.some.injEq, ← UInt32.toNat_inj, UInt32.toNat_add, ha, hb,
    UInt32.toNat_ofNat_of_lt' h]
  exact Nat.mod_eq_of_lt h

/-! ## The line index -/

namespace SourceText

theorem pairwise_lineBreaks (offset : Nat) (cs : List Char) :
    (offset :: lineBreaks offset cs).Pairwise (· < ·) := by
  induction cs generalizing offset with
  | nil => exact List.pairwise_singleton _ _
  | cons c cs ih =>
    have hnext : offset < offset + c.utf8Size := Nat.lt_add_of_pos_right c.utf8Size_pos
    obtain ⟨hbehind, hrest⟩ := List.pairwise_cons.1 (ih (offset + c.utf8Size))
    have hlater : ∀ n ∈ lineBreaks (offset + c.utf8Size) cs, offset < n :=
      fun n hn => Nat.lt_trans hnext (hbehind n hn)
    rw [lineBreaks]
    split_ifs
    · exact List.pairwise_cons.2 ⟨List.forall_mem_cons.2 ⟨hnext, hlater⟩, ih _⟩
    · exact List.pairwise_cons.2 ⟨hlater, hrest⟩

theorem boundary_of_mem_lineBreaks (front : List Char) {cs : List Char} {n : Nat}
    (h : n ∈ lineBreaks (byteLength front) cs) : Boundary (front ++ cs) n := by
  induction cs generalizing front with
  | nil => cases h
  | cons c cs ih =>
    have hnext : byteLength front + c.utf8Size = byteLength (front ++ [c]) := by
      simp [byteLength]
    have hsplit : front ++ c :: cs = (front ++ [c]) ++ cs := by simp
    rw [lineBreaks, hnext] at h
    rw [hsplit]
    split_ifs at h
    · rcases List.mem_cons.1 h with rfl | h
      · exact ⟨_, _, rfl, rfl⟩
      · exact ih _ h
    · exact ih _ h

variable (source : SourceText)

/-- The entries of the line index from which it is made: the start and what is behind breaks. -/
theorem boundary_of_mem_breaks :
    ∀ n ∈ 0 :: lineBreaks 0 source.text.toList, Boundary source.text.toList n :=
  List.forall_mem_cons.2 ⟨⟨[], _, rfl, rfl⟩, fun _ hn => boundary_of_mem_lineBreaks [] hn⟩

theorem boundary_of_mem_lineStarts {n : Nat} (h : n ∈ source.lineStarts) :
    Boundary source.text.toList n := by
  unfold lineStarts at h
  dsimp only at h
  split_ifs at h
  · exact source.boundary_of_mem_breaks n h
  · rcases List.mem_append.1 h with h | h
    · exact source.boundary_of_mem_breaks n h
    · rw [List.mem_singleton.1 h]
      exact ⟨_, [], (List.append_nil _).symm, rfl⟩

/-- The entries of the line index increase. -/
theorem pairwise_lineStarts : source.lineStarts.Pairwise (· < ·) := by
  have hbreaks := pairwise_lineBreaks 0 source.text.toList
  unfold lineStarts
  dsimp only
  split_ifs with hlast
  · exact hbreaks
  · refine List.pairwise_append.2 ⟨hbreaks, List.pairwise_singleton _ _, fun n hn stop hstop => ?_⟩
    rw [List.mem_singleton.1 hstop]
    refine Nat.lt_of_le_of_ne (source.boundary_of_mem_breaks n hn).le ?_
    -- no entry is greater than the size, so that the size would be the last entry
    rintro rfl
    obtain ⟨before, behind, hsplit⟩ := List.append_of_mem hn
    rw [hsplit] at hbreaks hlast
    cases behind with
    | nil => exact hlast List.getLast?_concat
    | cons next rest =>
      have hlt : source.size < next :=
        (List.pairwise_cons.1 (List.pairwise_append.1 hbreaks).2.1).1 next List.mem_cons_self
      have hle := (source.boundary_of_mem_breaks next (by simp [hsplit])).le
      exact absurd hlt (Nat.not_lt.2 hle)

/-- The line index closes with the end of the text. -/
theorem getLast?_lineStarts : source.lineStarts.getLast? = some source.size := by
  unfold lineStarts
  dsimp only
  split_ifs with hlast
  · exact hlast
  · exact List.getLast?_concat

theorem size_mem_lineStarts : source.size ∈ source.lineStarts :=
  List.mem_of_getLast? source.getLast?_lineStarts

theorem getElem?_zero_lineStarts : source.lineStarts[0]? = some 0 := by
  unfold lineStarts
  dsimp only
  split_ifs <;> rfl

/-- In an increasing list the entries up to a number come first. -/
theorem getElem_le_iff {l : List Nat} (h : l.Pairwise (· < ·)) {i : Nat} (hi : i < l.length)
    (place : Nat) : l[i] ≤ place ↔ i < (l.takeWhile (· ≤ place)).length := by
  induction l generalizing i with
  | nil => simp at hi
  | cons first rest ih =>
    obtain ⟨hbehind, hrest⟩ := List.pairwise_cons.1 h
    by_cases hfirst : first ≤ place
    · rw [List.takeWhile_cons_of_pos (by simpa using hfirst), List.length_cons]
      cases i with
      | zero => simpa using hfirst
      | succ i =>
        rw [List.getElem_cons_succ, Nat.add_lt_add_iff_right]
        exact ih hrest (by simpa using hi)
    · rw [List.takeWhile_cons_of_neg (by simpa using hfirst)]
      cases i with
      | zero => simpa using hfirst
      | succ i =>
        have hlt := hbehind _ (List.getElem_mem (Nat.lt_of_succ_lt_succ hi))
        simp only [List.getElem_cons_succ, List.length_nil, Nat.not_lt_zero, iff_false]
        omega

variable {source}

/-- The line index in words holds the offsets themselves. -/
theorem index_eq (h : source.size < UInt32.size) :
    source.index = (source.lineStarts.map Nat.toUInt32).toArray := by
  -- as a word the last entry is the size only if it is the size
  have hlast : ((0 :: lineBreaks 0 source.text.toList).map Nat.toUInt32).getLast? =
        some source.size.toUInt32 ↔
      (0 :: lineBreaks 0 source.text.toList).getLast? = some source.size := by
    rw [List.getLast?_map, Option.map_eq_some_iff]
    constructor
    · rintro ⟨last, hlast, heq⟩
      have hle := (source.boundary_of_mem_breaks last (List.mem_of_getLast? hlast)).le
      have hlt : last < UInt32.size := Nat.lt_of_le_of_lt hle h
      have hword := congrArg UInt32.toNat heq
      rw [UInt32.toNat_ofNat_of_lt' hlt, UInt32.toNat_ofNat_of_lt' h] at hword
      rw [hlast, hword]
    · exact fun hlast => ⟨_, hlast, rfl⟩
  unfold index lineStarts
  dsimp only
  simp only [hlast]
  split_ifs
  · rfl
  · rw [List.map_append]
    rfl

theorem toNat_of_mem_lineStarts (h : source.size < UInt32.size) {n : Nat}
    (hn : n ∈ source.lineStarts) : n.toUInt32.toNat = n :=
  UInt32.toNat_ofNat_of_lt' (Nat.lt_of_le_of_lt (source.boundary_of_mem_lineStarts hn).le h)

theorem getElem?_index (h : source.size < UInt32.size) (i : Nat) :
    source.index[i]? = source.lineStarts[i]?.map Nat.toUInt32 := by
  simp [index_eq h]

theorem size_index (h : source.size < UInt32.size) :
    source.index.size = source.lineStarts.length := by
  simp [index_eq h]

/-- Halving counts the entries up to an offset. -/
theorem reached_eq (h : source.size < UInt32.size) (place : UInt32) :
    reached source.index place = (source.lineStarts.takeWhile (· ≤ place.toNat)).length := by
  refine bisect_eq (fun i _ hi => ?_) (Nat.zero_le _) ?_
  · rw [size_index h] at hi
    have hword := toNat_of_mem_lineStarts h (List.getElem_mem hi)
    rw [← getElem_le_iff source.pairwise_lineStarts hi, getElem?_index h,
      List.getElem?_eq_getElem hi, Option.map_some, Option.any_some, decide_eq_true_eq,
      UInt32.le_iff_toNat_le, hword]
  · rw [size_index h]
    exact (List.takeWhile_sublist _).length_le

/-- The last entry up to an offset. -/
theorem exists_last_reached (place : Nat) :
    ∃ start, source.lineStarts[(source.lineStarts.takeWhile (· ≤ place)).length - 1]? = some start ∧
      (source.lineStarts.takeWhile (· ≤ place)).getLastD 0 = start ∧ start ≤ place ∧
      0 < (source.lineStarts.takeWhile (· ≤ place)).length := by
  obtain ⟨hpos, hzero⟩ := List.getElem?_eq_some_iff.1 source.getElem?_zero_lineStarts
  set reached := source.lineStarts.takeWhile (· ≤ place) with hreached
  have hsome : 0 < reached.length := by
    rw [hreached, ← getElem_le_iff source.pairwise_lineStarts hpos, hzero]
    exact Nat.zero_le _
  have hprefix : reached <+: source.lineStarts := List.takeWhile_prefix _
  have hlast : reached.length - 1 < source.lineStarts.length :=
    Nat.lt_of_lt_of_le (Nat.sub_one_lt_of_lt hsome) hprefix.length_le
  refine ⟨source.lineStarts[reached.length - 1], List.getElem?_eq_getElem hlast, ?_, ?_, hsome⟩
  · have hheld : reached.getLast? = some source.lineStarts[reached.length - 1] := by
      rw [List.getLast?_eq_getElem?, List.getElem?_eq_getElem (Nat.sub_one_lt_of_lt hsome),
        hprefix.getElem]
    rw [List.getLastD_eq_getLast?, hheld, Option.getD_some]
  · rw [getElem_le_iff source.pairwise_lineStarts hlast, ← hreached]
    exact Nat.sub_one_lt_of_lt hsome

/-- No column exceeds the size of the text, but for that of an empty last line. -/
theorem column_lt (h : source.size < UInt32.size) (offset : Nat) :
    (source.lineCol offset).2 < UInt32.size := by
  obtain ⟨start, hstart, hlast, hle, -⟩ := source.exists_last_reached (min offset source.size)
  have hcolumn : (source.lineCol offset).2 = min offset source.size - start + 1 := by
    rw [← hlast]
    rfl
  rw [hcolumn]
  rcases Nat.lt_or_ge offset source.size with hoffset | hoffset
  · omega
  · -- at the end the last entry is the end itself
    rw [Nat.min_eq_right hoffset] at hstart ⊢
    obtain ⟨hbound, rfl⟩ := List.getElem?_eq_some_iff.1 hstart
    obtain ⟨j, hj, hend⟩ := List.getElem_of_mem source.size_mem_lineStarts
    have hreached : j < (source.lineStarts.takeWhile (· ≤ source.size)).length :=
      (getElem_le_iff source.pairwise_lineStarts hj source.size).1 (Nat.le_of_eq hend)
    have hsize : source.size ≤
        source.lineStarts[(source.lineStarts.takeWhile (· ≤ source.size)).length - 1] := by
      rcases Nat.eq_or_lt_of_le (Nat.le_sub_one_of_lt hreached) with heq | hlt
      · simp only [← heq, hend, Nat.le_refl]
      · have := List.pairwise_iff_getElem.1 source.pairwise_lineStarts j _ hj hbound hlt
        omega
    have hone : 1 < UInt32.size := by decide
    omega

/-- **The line and the column of an offset are looked up without fault.** -/
theorem lineCol?_eq (h : source.size < UInt32.size) (offset : UInt32) :
    source.lineCol? offset = some ((source.lineCol offset.toNat).1.toUInt32,
      (source.lineCol offset.toNat).2.toUInt32) := by
  have hplace : min offset source.size.toUInt32 = (min offset.toNat source.size).toUInt32 := by
    rw [← min_toUInt32 offset.toNat_lt_size h]
    exact congrArg (min · _) UInt32.ofNat_toNat.symm
  have hcolumn := column_lt h offset.toNat
  obtain ⟨start, hstart, hlast, hle, hreached⟩ :=
    source.exists_last_reached (min offset.toNat source.size)
  have hsize : min offset.toNat source.size < UInt32.size := by omega
  unfold lineCol at hcolumn ⊢
  dsimp only at hcolumn ⊢
  rw [hlast] at hcolumn ⊢
  have hentry : max (reached source.index (min offset source.size.toUInt32)) 1 - 1 =
      (source.lineStarts.takeWhile (· ≤ min offset.toNat source.size)).length - 1 := by
    rw [reached_eq h, hplace, UInt32.toNat_ofNat_of_lt' hsize]
    omega
  unfold lineCol?
  dsimp only
  rw [hentry, getElem?_index h, hstart, hplace, Option.map_some]
  simp only [Option.bind_eq_bind, Option.bind_some, Word.sub?_toUInt32 hsize hle]
  rw [show (1 : UInt32) = Nat.toUInt32 1 from rfl, Word.add?_toUInt32 hcolumn, Option.bind_some,
    Nat.sub_add_cancel hreached]
  rfl

/-- The text of a line can be cut out. -/
theorem exists_line? {n : Nat} (h : n + 1 < source.lineStarts.length) :
    ∃ cs, slice? source.lineStarts[n] source.lineStarts[n + 1] source.text.toList = some cs ∧
      source.line? (n + 1) = some (String.ofList (trimBreaks cs)) := by
  have hlt := List.pairwise_iff_getElem.1 source.pairwise_lineStarts n (n + 1)
    (Nat.lt_of_succ_lt h) h (Nat.lt_succ_self n)
  obtain ⟨cs, hcs⟩ := exists_slice? (source.boundary_of_mem_lineStarts (List.getElem_mem _))
    (source.boundary_of_mem_lineStarts (List.getElem_mem _)) (Nat.le_of_lt hlt)
  refine ⟨cs, hcs, ?_⟩
  rw [line?, List.getElem?_eq_getElem (Nat.lt_of_succ_lt h), List.getElem?_eq_getElem h]
  simp only [Option.bind_eq_bind, Option.bind_some, hcs]
  rfl

/-- **The text of a line is looked up without fault.** -/
theorem lineText?_eq (h : source.size < UInt32.size) (line : UInt32) :
    source.lineText? line = some (source.line? line.toNat) := by
  have hword : line.toNat.toUInt32 = line := UInt32.ofNat_toNat
  have hlt := line.toNat_lt_size
  generalize line.toNat = number at hword hlt
  subst hword
  unfold lineText?
  dsimp only
  rw [size_index h, UInt32.toNat_ofNat_of_lt' hlt]
  cases number with
  | zero => rfl
  | succ n =>
    split_ifs with hout
    · have hnone : source.lineStarts.length ≤ n + 1 := by
        refine hout.resolve_left fun hzero => ?_
        have := congrArg UInt32.toNat hzero
        rw [UInt32.toNat_ofNat_of_lt' hlt] at this
        cases this
      rw [line?, List.getElem?_eq_none hnone]
      cases source.lineStarts[n]? <;> rfl
    · have hin : n + 1 < source.lineStarts.length := Nat.not_le.1 fun hle => hout (.inr hle)
      obtain ⟨cs, hcs, hline⟩ := exists_line? hin
      have hentry : Word.sub? (n + 1).toUInt32 1 = some n.toUInt32 :=
        Word.sub?_toUInt32 hlt (Nat.le_add_left 1 n)
      rw [hentry, hline]
      simp only [Option.bind_eq_bind, Option.bind_some,
        UInt32.toNat_ofNat_of_lt' (Nat.lt_of_succ_lt hlt), getElem?_index h,
        List.getElem?_eq_getElem (Nat.lt_of_succ_lt hin), List.getElem?_eq_getElem hin,
        Option.map_some, toNat_of_mem_lineStarts h (List.getElem_mem _), hcs]
      rfl

end SourceText

end Attestation
