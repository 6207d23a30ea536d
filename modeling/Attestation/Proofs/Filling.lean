import Attestation.Proofs.Layout
import Mathlib.Data.List.Nodup
import Mathlib.Data.List.Range
import Mathlib.Data.List.TakeWhile

/-!
# Filling the holes of a line

The holes of a line are filled one after the other: the name of each is replaced wherever it occurs
in the line so far. What is put in may be searched again for the names of later holes. As long as
nothing that is put in has a percent sign, with which the name of every hole begins, this is the
same as filling all holes at once: `Gadget.fillHoles_eq_line`.

It takes two facts about layouts. Names of holes do not run into each other, so that replacing one
leaves the others as they are (`Piece.replaceFrom_template`); and no two holes of a line share a
name (`Gadget.nodup_keys_bindings`).
-/

namespace Attestation

open Text

/-! ## Texts that stop at a character -/

/-- A text is told from what follows it if that starts with a character the text cannot have. -/
theorem append_inj_of_stop {p : Char → Bool} {s s' r r' : List Char} (hs : ∀ c ∈ s, p c = true)
    (hs' : ∀ c ∈ s', p c = true) (hr : ∀ c ∈ r.head?, p c = false)
    (hr' : ∀ c ∈ r'.head?, p c = false) (h : s ++ r = s' ++ r') : s = s' ∧ r = r' := by
  have hstop : ∀ {r : List Char}, (∀ c ∈ r.head?, p c = false) → r.takeWhile p = [] := by
    intro r hr
    cases r with
    | nil => rfl
    | cons c cs => simp [hr c rfl]
  have htake := congrArg (List.takeWhile p) h
  rw [List.takeWhile_append_of_pos hs, List.takeWhile_append_of_pos hs', hstop hr, hstop hr',
    List.append_nil, List.append_nil] at htake
  subst htake
  exact ⟨rfl, List.append_cancel_left h⟩

/-! ## Replacing -/

namespace Text

variable {c : Char} {pattern replacement : List Char}

theorem replaceFrom_skip (skipped rest : List Char) :
    replaceFrom pattern replacement skipped.length (skipped ++ rest) =
      replaceFrom pattern replacement 0 rest := by
  induction skipped with
  | nil => rfl
  | cons d skipped ih => exact ih

/-- An occurrence is replaced. -/
theorem replaceFrom_append_self (rest : List Char) :
    replaceFrom (c :: pattern) replacement 0 (c :: pattern ++ rest) =
      replacement ++ replaceFrom (c :: pattern) replacement 0 rest := by
  have hstart : (c :: pattern).isPrefixOf (c :: (pattern ++ rest)) = true := by simp
  rw [List.cons_append, replaceFrom, if_pos hstart, List.length_cons, Nat.add_sub_cancel,
    replaceFrom_skip]

/-- A text without the first character of the pattern is copied. -/
theorem replaceFrom_append_of_notMem {text : List Char} (h : c ∉ text) (rest : List Char) :
    replaceFrom (c :: pattern) replacement 0 (text ++ rest) =
      text ++ replaceFrom (c :: pattern) replacement 0 rest := by
  induction text with
  | nil => rfl
  | cons d text ih =>
    have hd : ¬ (c :: pattern).isPrefixOf (d :: (text ++ rest)) = true := by
      simp [show c ≠ d from fun hcd => h (hcd ▸ List.mem_cons_self)]
    rw [List.cons_append, replaceFrom, if_neg hd, ih fun hc => h (List.mem_cons_of_mem d hc)]
    rfl

/-- A text that starts like the pattern and goes on otherwise is copied. -/
theorem replaceFrom_cons_append_of_notMem {text rest : List Char} (h : c ∉ text)
    (hstart : ¬ c :: pattern <+: c :: text ++ rest) :
    replaceFrom (c :: pattern) replacement 0 (c :: text ++ rest) =
      c :: text ++ replaceFrom (c :: pattern) replacement 0 rest := by
  rw [← List.isPrefixOf_iff_prefix, List.cons_append] at hstart
  rw [List.cons_append, replaceFrom, if_neg hstart, replaceFrom_append_of_notMem h,
    List.cons_append]

end Text

/-! ## Holes -/

theorem toList_placeholder (name : String) :
    (placeholder name).toList = '%' :: '(' :: (name.toList ++ [')']) := by
  simp [placeholder]

/-- Names of holes that have no closing parenthesis do not run into each other. -/
theorem not_placeholder_prefix {name other : String} (hname : ')' ∉ name.toList)
    (hother : ')' ∉ other.toList) (hne : other ≠ name) (rest : List Char) :
    ¬ (placeholder name).toList <+: (placeholder other).toList ++ rest := by
  rintro ⟨behind, h⟩
  rw [toList_placeholder, toList_placeholder] at h
  simp only [List.cons_append, List.append_assoc, List.nil_append, List.cons.injEq, true_and] at h
  have hstop : ∀ {name : String}, ')' ∉ name.toList →
      ∀ c ∈ name.toList, (c != ')') = true := by
    intro name hname c hc
    simpa using fun hcc : c = ')' => hname (hcc ▸ hc)
  have heq := (append_inj_of_stop (p := (· != ')')) (hstop hname) (hstop hother) (by simp)
    (by simp) h).1
  exact hne (String.toList_inj.1 heq).symm

theorem replaceFrom_placeholder_self (name : String) (replacement rest : List Char) :
    replaceFrom (placeholder name).toList replacement 0 ((placeholder name).toList ++ rest) =
      replacement ++ replaceFrom (placeholder name).toList replacement 0 rest := by
  rw [toList_placeholder]
  exact replaceFrom_append_self rest

theorem replaceFrom_placeholder_of_ne {name other : String} (hname : ')' ∉ name.toList)
    (hpercent : '%' ∉ other.toList) (hother : ')' ∉ other.toList) (hne : other ≠ name)
    (replacement rest : List Char) :
    replaceFrom (placeholder name).toList replacement 0 ((placeholder other).toList ++ rest) =
      (placeholder other).toList ++ replaceFrom (placeholder name).toList replacement 0 rest := by
  have hstart := not_placeholder_prefix hname hother hne rest
  have hbehind : '%' ∉ '(' :: (other.toList ++ [')']) := by simpa using hpercent
  rw [toList_placeholder, toList_placeholder other] at hstart ⊢
  exact replaceFrom_cons_append_of_notMem hbehind hstart

namespace Piece

/-- The part has no percent sign but that of a hole, whose name has no closing parenthesis. -/
def Plain : Piece → Prop
  | words text => '%' ∉ text.toList
  | hole name _ => '%' ∉ name.toList ∧ ')' ∉ name.toList

/-- The part with a text put in if it is the hole of a name. -/
def plug (name text : String) : Piece → Piece
  | words w => words w
  | hole other v => if other = name then words text else hole other v

theorem Plain.plug {p : Piece} (h : p.Plain) {text : String} (htext : '%' ∉ text.toList)
    (name : String) : (p.plug name text).Plain := by
  cases p with
  | words w => exact h
  | hole other v =>
    rw [Piece.plug]
    split_ifs
    · exact htext
    · exact h

/-- **Replacing the name of a hole fills the hole** and leaves all else as it is. -/
theorem replaceFrom_template {name : String} (hname : ')' ∉ name.toList) (text : String)
    {pieces : List Piece} (h : ∀ p ∈ pieces, p.Plain) :
    replaceFrom (placeholder name).toList text.toList 0 (pieces.flatMap (·.template.toList)) =
      pieces.flatMap fun p => (p.plug name text).template.toList := by
  induction pieces with
  | nil => rfl
  | cons p rest ih =>
    have hp := h p List.mem_cons_self
    have hrest := ih fun q hq => h q (List.mem_cons_of_mem p hq)
    rw [List.flatMap_cons, List.flatMap_cons, ← hrest]
    cases p with
    | words w =>
      rw [toList_placeholder]
      exact replaceFrom_append_of_notMem hp _
    | hole other v =>
      rw [plug]
      split_ifs with hother
      · subst hother
        exact replaceFrom_placeholder_self other _ _
      · exact replaceFrom_placeholder_of_ne hname hp.1 hp.2 hother _ _

/-- The part with the text for its name put in, if it is a hole that there is one for. -/
def plugAll (texts : List (String × String)) (p : Piece) : Piece :=
  texts.foldl (fun p (name, text) => p.plug name text) p

theorem plugAll_words (texts : List (String × String)) (w : String) :
    (words w).plugAll texts = words w := by
  induction texts with
  | nil => rfl
  | cons entry rest ih => exact ih

/-- Of several texts for a hole the first is put in. -/
theorem plugAll_hole (texts : List (String × String)) (name : String) (v : Variable) :
    (hole name v).plugAll texts = ((Table.find? name texts).map words).getD (hole name v) := by
  induction texts with
  | nil => rfl
  | cons entry rest ih =>
    obtain ⟨other, text⟩ := entry
    change ((hole name v).plug other text).plugAll rest = _
    rw [plug, Table.find?]
    by_cases h : name = other
    · rw [if_pos h, if_pos h.symm, plugAll_words]
      rfl
    · rw [if_neg h, if_neg fun ho => h ho.symm, ih]

theorem replaceAll_template {name : String} (hname : ')' ∉ name.toList) (text : String)
    {pieces : List Piece} (h : ∀ p ∈ pieces, p.Plain) :
    replaceAll (placeholder name) text (String.join (pieces.map template)) =
      String.join ((pieces.map (plug name text)).map template) := by
  apply String.toList_inj.1
  rw [replaceAll, String.toList_ofList, String.toList_join, List.flatMap_map, String.toList_join,
    List.flatMap_map, List.flatMap_map]
  exact replaceFrom_template hname text h

/-- Filling holes one after the other fills each with the text for its name. -/
theorem fillHoles_template {texts : List (String × String)}
    (htexts : ∀ entry ∈ texts, ')' ∉ entry.1.toList ∧ '%' ∉ entry.2.toList) {pieces : List Piece}
    (h : ∀ p ∈ pieces, p.Plain) :
    Gadget.fillHoles (String.join (pieces.map template)) texts =
      String.join ((pieces.map (plugAll texts)).map template) := by
  induction texts generalizing pieces with
  | nil =>
    rw [show plugAll [] = id from rfl, List.map_id]
    rfl
  | cons entry rest ih =>
    obtain ⟨name, text⟩ := entry
    obtain ⟨hname, htext⟩ := htexts _ List.mem_cons_self
    have hplug : ∀ p ∈ pieces.map (plug name text), p.Plain := by
      intro p hp
      obtain ⟨q, hq, rfl⟩ := List.mem_map.1 hp
      exact (h q hq).plug htext name
    have hpieces : pieces.map (plugAll ((name, text) :: rest)) =
        (pieces.map (plug name text)).map (plugAll rest) := by
      rw [List.map_map]
      rfl
    rw [hpieces, ← ih (fun e he => htexts e (List.mem_cons_of_mem _ he)) hplug,
      ← replaceAll_template hname text h]
    rfl

/-- The part with the text of its variable in the place of a hole. -/
def filled (f : Variable → String) : Piece → String
  | words text => text
  | hole _ v => f v

end Piece

/-! ## Layouts -/

theorem Text.Decimal.isDigit_of_mem_ofNat {n : Nat} {c : Char} (h : c ∈ (Decimal.ofNat n).toList) :
    c.isDigit = true := by
  rw [Decimal.ofNat, String.toList_ofList] at h
  exact Nat.isDigit_of_mem_toDigits (by omega) (by omega) h

theorem Membership.filterMap_elementPieces (position : Nat) (elements : List Variable) :
    (elementPieces position elements).filterMap Piece.binding? =
      (elements.zipIdx position).map fun (e, i) => (elementName i, e) := by
  induction elements generalizing position with
  | nil => rfl
  | cons e rest ih => simp [elementPieces, ih]

theorem MerkleTree.treePieces_snd (position : Nat) (t : Tree Variable) :
    (treePieces position t).2 = position + t.leaves.length := by
  induction t generalizing position with
  | leaf v => rfl
  | branch left right ihl ihr =>
    simp only [treePieces, ihl, ihr, Tree.leaves, List.length_append]
    omega

theorem MerkleTree.filterMap_treePieces (position : Nat) (t : Tree Variable) :
    (treePieces position t).1.filterMap Piece.binding? =
      (t.leaves.zipIdx position).map fun (v, i) => (leafName i, v) := by
  induction t generalizing position with
  | leaf v => rfl
  | branch left right ihl ihr =>
    simp [treePieces, ihl, ihr, treePieces_snd, Tree.leaves, List.zipIdx_append]

/-- Numbered names differ from each other, and from a name that is none of them. -/
theorem nodup_keys_numbered {first stem : String} (hfirst : ∀ n, first ≠ stem ++ Decimal.ofNat n)
    (v : Variable) (l : List Variable) :
    (Table.keys ((first, v) :: l.zipIdx.map fun (w, i) => (stem ++ Decimal.ofNat i, w))).Nodup := by
  have hkeys : Table.keys (l.zipIdx.map fun (w, i) => (stem ++ Decimal.ofNat i, w)) =
      (List.range' 0 l.length).map fun n => stem ++ Decimal.ofNat n := by
    rw [← List.zipIdx_map_snd, Table.keys, List.map_map, List.map_map]
    rfl
  change (first :: Table.keys (l.zipIdx.map fun (w, i) => (stem ++ Decimal.ofNat i, w))).Nodup
  rw [hkeys, List.nodup_cons]
  refine ⟨?_, List.Nodup.map (numbered_injective stem) (List.nodup_range' 1)⟩
  rintro hmem
  obtain ⟨n, -, hn⟩ := List.mem_map.1 hmem
  exact hfirst n hn.symm

theorem Piece.plain_numbered {stem : String} {v : Variable} (h : (hole stem v).Plain) (n : Nat) :
    (hole (stem ++ Decimal.ofNat n) v).Plain := by
  have hdigits : ∀ c : Char, c.isDigit = false → c ∉ (Decimal.ofNat n).toList := by
    intro c hc hmem
    rw [Decimal.isDigit_of_mem_ofNat hmem] at hc
    cases hc
  simp only [Plain, String.toList_append, List.mem_append, not_or]
  exact ⟨⟨h.1, hdigits '%' rfl⟩, h.2, hdigits ')' rfl⟩

theorem Membership.plain_elementPieces (position : Nat) (elements : List Variable) :
    ∀ p ∈ elementPieces position elements, p.Plain := by
  induction elements generalizing position with
  | nil => simp [elementPieces]
  | cons e rest ih =>
    refine List.forall_mem_cons.2 ⟨by simp [Piece.Plain], List.forall_mem_cons.2 ⟨?_, ih _⟩⟩
    exact Piece.plain_numbered (by simp [Piece.Plain]) position

theorem MerkleTree.plain_treePieces (position : Nat) (t : Tree Variable) :
    ∀ p ∈ (treePieces position t).1, p.Plain := by
  induction t generalizing position with
  | leaf v =>
    exact List.forall_mem_singleton.2 (Piece.plain_numbered (by simp [Piece.Plain]) position)
  | branch left right ihl ihr =>
    simp only [treePieces, List.cons_append, List.append_assoc, List.forall_mem_cons,
      List.forall_mem_append]
    exact ⟨by simp [Piece.Plain], ihl _, by simp [Piece.Plain], ihr _, by simp [Piece.Plain]⟩

namespace Gadget

/-- The line of a gadget with a text for each variable. -/
def line (f : Variable → String) (g : Gadget) : String :=
  String.join (g.layout.map (Piece.filled f))

theorem plain_layout (g : Gadget) : ∀ p ∈ g.layout, p.Plain := by
  cases g with
  | equality g => simp [layout, Piece.Plain]
  | inequality g => simp [layout, Piece.Plain]
  | bounds g => simp [layout, Piece.Plain]
  | membership g =>
    refine List.forall_mem_append.2 ⟨?_, Membership.plain_elementPieces 0 g.set⟩
    simp [Piece.Plain]
  | mimcHash g => simp [layout, Piece.Plain]
  | merkleTree g =>
    refine List.forall_mem_append.2 ⟨?_, MerkleTree.plain_treePieces 0 g.tree⟩
    simp [Piece.Plain]

theorem bindings_membership (g : Membership) : (membership g).bindings =
    ("member", g.member) :: g.set.zipIdx.map fun (e, i) => (Membership.elementName i, e) := by
  rw [bindings_eq]
  exact congrArg _ (Membership.filterMap_elementPieces 0 g.set)

theorem bindings_merkleTree (g : MerkleTree) : (merkleTree g).bindings =
    ("root", g.root) :: g.tree.leaves.zipIdx.map fun (v, i) => (MerkleTree.leafName i, v) := by
  rw [bindings_eq]
  exact congrArg _ (MerkleTree.filterMap_treePieces 0 g.tree)

/-- **No two holes of a line share a name.** -/
theorem nodup_keys_bindings (g : Gadget) : (Table.keys g.bindings).Nodup := by
  cases g with
  | equality g => simp [bindings_eq, layout, Table.keys]
  | inequality g => simp [bindings_eq, layout, Table.keys]
  | bounds g => simp [bindings_eq, layout, Table.keys]
  | membership g =>
    rw [bindings_membership]
    exact nodup_keys_numbered (fun n => by simp [← String.toList_inj]) g.member g.set
  | mimcHash g => simp [bindings_eq, layout, Table.keys]
  | merkleTree g =>
    rw [bindings_merkleTree]
    exact nodup_keys_numbered (fun n => by simp [← String.toList_inj]) g.root g.tree.leaves

theorem mem_bindings_iff {g : Gadget} {name : String} {v : Variable} :
    (name, v) ∈ g.bindings ↔ .hole name v ∈ g.layout := by
  rw [bindings_eq, List.mem_filterMap]
  constructor
  · rintro ⟨p, hp, hname⟩
    cases p with
    | words w => cases hname
    | hole other w =>
      cases hname
      exact hp
  · exact fun h => ⟨_, h, rfl⟩

/-- The variables that the line of a gadget shows, from left to right. -/
def shown (g : Gadget) : List Variable :=
  g.bindings.map (·.2)

/-- The holes are for the variables of the gadget. -/
theorem mem_shown_iff {g : Gadget} {v : Variable} : v ∈ g.shown ↔ v ∈ g.vars := by
  unfold shown
  cases g with
  | membership g => simp [bindings_membership, Function.comp_def, vars]
  | merkleTree g => simp [bindings_merkleTree, Function.comp_def, vars]
  | mimcHash g => simp [bindings_eq, layout, vars, or_comm]
  | _ g => simp [bindings_eq, layout, vars]

theorem exists_binding_of_mem_vars {g : Gadget} {v : Variable} (hv : v ∈ g.vars) :
    ∃ name, (name, v) ∈ g.bindings := by
  obtain ⟨⟨name, _⟩, hbinding, rfl⟩ := List.mem_map.1 (mem_shown_iff.2 hv)
  exact ⟨name, hbinding⟩

/-- The text for a hole is found by its name. -/
theorem find?_bindings {g : Gadget} {name : String} {v : Variable} (h : .hole name v ∈ g.layout)
    (f : Variable → String) :
    Table.find? name (g.bindings.map fun (name, v) => (name, f v)) = some (f v) := by
  have hkeys : (Table.keys (g.bindings.map fun (name, v) => (name, f v))).Nodup := by
    have hsame : Table.keys (g.bindings.map fun (name, v) => (name, f v)) =
        Table.keys g.bindings := List.map_map
    exact hsame ▸ g.nodup_keys_bindings
  exact Table.find?_of_mem hkeys (List.mem_map.2 ⟨(name, v), mem_bindings_iff.2 h, rfl⟩)

/-- **Filling holes one after the other is filling them all at once**, if no text that is put in has
a percent sign. -/
theorem fillHoles_eq_line (g : Gadget) {f : Variable → String}
    (hf : ∀ entry ∈ g.bindings, '%' ∉ (f entry.2).toList) :
    fillHoles g.template (g.bindings.map fun (name, v) => (name, f v)) = g.line f := by
  have htexts : ∀ entry ∈ g.bindings.map fun (name, v) => (name, f v),
      ')' ∉ entry.1.toList ∧ '%' ∉ entry.2.toList := by
    intro entry hentry
    obtain ⟨binding, hbinding, rfl⟩ := List.mem_map.1 hentry
    exact ⟨(g.plain_layout _ (mem_bindings_iff.1 hbinding)).2, hf binding hbinding⟩
  rw [template_eq, Piece.fillHoles_template htexts g.plain_layout, line, List.map_map]
  refine congrArg String.join (List.map_congr_left fun p hp => ?_)
  rw [Function.comp_apply]
  cases p with
  | words w => rw [Piece.plugAll_words]; rfl
  | hole name v =>
    rw [Piece.plugAll_hole, find?_bindings hp]
    rfl

end Gadget

end Attestation
