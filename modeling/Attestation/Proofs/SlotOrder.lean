import Attestation.Proofs.UniqueReading

/-!
# Slots by first use

The slots that stand in a rendered text can be read off it, from left to right and from top to bottom
(`slotsIn`): they are the slots of the variables in the order in which the layouts of the gadgets show
them. Keys are given slots as they come up, so the keys with slots are those of the variables, each
where it first comes up (`Slots.keys_ofGadgets`). Together with the tables this pins slots down
completely: `Rendered.firstUse_render`.
-/

namespace Attestation

open Text
open Syntax (PredicateKind)

/-! ## First occurrences -/

section EraseDups

variable {α β : Type} [DecidableEq α] [DecidableEq β]

/-- Adds an item behind others, unless it is among them. -/
def addNew (items : List α) (a : α) : List α :=
  if a ∈ items then items else items ++ [a]

theorem eraseDups_concat (l : List α) (a : α) : (l ++ [a]).eraseDups = addNew l.eraseDups a := by
  rw [List.eraseDups_append, addNew, List.cons_removeAll, List.nil_removeAll]
  by_cases h : a ∈ l <;> simp [h, List.eraseDups_cons]

theorem foldl_addNew (l : List α) : l.foldl addNew [] = l.eraseDups := by
  induction l using List.reverseRecOn with
  | nil => rfl
  | append_singleton l a ih => rw [List.foldl_concat, ih, eraseDups_concat]

/-- What is told apart is so in the order of first occurrences. -/
theorem eraseDups_map {f : α → β} {l : List α} (hf : ∀ a ∈ l, ∀ b ∈ l, f a = f b → a = b) :
    (l.map f).eraseDups = l.eraseDups.map f := by
  induction l using List.reverseRecOn with
  | nil => rfl
  | append_singleton l a ih =>
    have hmem : f a ∈ l.eraseDups.map f ↔ a ∈ l.eraseDups := by
      refine ⟨fun h => ?_, List.mem_map_of_mem⟩
      obtain ⟨b, hb, hba⟩ := List.mem_map.1 h
      have hb' : b ∈ l := List.mem_eraseDups.1 hb
      rwa [← hf b (by simp [hb']) a (by simp) hba]
    rw [List.map_append, List.map_singleton, eraseDups_concat, eraseDups_concat,
      ih fun b hb c hc => hf b (by simp [hb]) c (by simp [hc]), addNew, addNew]
    simp only [hmem]
    split_ifs <;> simp

theorem eraseDups_filter (p : α → Bool) (l : List α) :
    (l.filter p).eraseDups = l.eraseDups.filter p := by
  induction l using List.reverseRecOn with
  | nil => rfl
  | append_singleton l a ih =>
    rw [List.filter_append, eraseDups_concat, addNew, List.filter_singleton]
    cases hp : p a with
    | false => split_ifs <;> simp [ih, hp]
    | true =>
      rw [cond_true, eraseDups_concat, addNew, ih]
      split_ifs <;> simp_all

end EraseDups

/-! ## Keys -/

/-- The variables that the lines of gadgets show, line after line. -/
def occurrences (gadgets : List Gadget) : List Variable :=
  gadgets.flatMap Gadget.shown

theorem mem_occurrences_iff {gadgets : List Gadget} {v : Variable} :
    v ∈ occurrences gadgets ↔ ∃ g ∈ gadgets, v ∈ g.vars := by
  simp [occurrences, Gadget.mem_shown_iff]

namespace Slots

theorem keys_add (slots : Slots) (key : SlotKey) (slot : String) :
    (slots.add key slot).keys = slots.keys ++ [key] := by
  rw [keys, assigned_add, List.map_append]
  rfl

/-- A key that comes up is added if it has no slot. -/
theorem keys_assign (slots : Slots) (v : Variable) :
    (slots.assign v).2.keys = addNew slots.keys (SlotKey.ofVariable v) := by
  unfold assign
  dsimp only
  split
  case h_1 slot hslot =>
    have hmem : SlotKey.ofVariable v ∈ slots.keys := List.mem_map_of_mem (mem_of_slot? hslot)
    rw [addNew, if_pos hmem]
  case h_2 hnone => rw [keys_add, addNew, if_neg (slot?_eq_none_iff.1 hnone)]

theorem keys_assignAll (slots : Slots) (bindings : List (String × Variable)) :
    (slots.assignAll bindings).2.keys =
      ((bindings.map (·.2)).map SlotKey.ofVariable).foldl addNew slots.keys := by
  induction bindings generalizing slots with
  | nil => rfl
  | cons binding rest ih =>
    rw [List.map_cons, List.map_cons, List.foldl_cons, ← keys_assign, ← ih]
    rfl

theorem keys_renderLines (slots : Slots) (gadgets : List Gadget) :
    (renderLines slots gadgets).2.keys =
      ((occurrences gadgets).map SlotKey.ofVariable).foldl addNew slots.keys := by
  induction gadgets generalizing slots with
  | nil => rfl
  | cons g rest ih =>
    have hsplit : occurrences (g :: rest) = g.shown ++ occurrences rest := rfl
    rw [hsplit, List.map_append, List.foldl_append, Gadget.shown, ← keys_assignAll, ← ih]
    rfl

/-- **Keys have slots in the order in which they first come up.** -/
theorem keys_ofGadgets (gadgets : List Gadget) :
    (ofGadgets gadgets).keys = ((occurrences gadgets).map SlotKey.ofVariable).eraseDups := by
  rw [ofGadgets, keys_renderLines, ← foldl_addNew]
  rfl

theorem holds_of_mem_occurrences {gadgets : List Gadget} {v : Variable}
    (hv : v ∈ occurrences gadgets) : (ofGadgets gadgets).Holds v := by
  obtain ⟨g, hg, hv⟩ := mem_occurrences_iff.1 hv
  exact holds_ofGadgets g hg v hv

/-! ## Tables -/

/-- The slots of a visibility are those of its keys, in the order of the keys. -/
theorem Linked.keys_table_eq_slots {slots : Slots} (h : slots.Linked) (visibility : Visibility) :
    (slots.table visibility).keys = (slots.keys.filter (·.visibility = visibility)).map
      fun key => (slots.slot? key).getD "" := by
  rw [h.keys_table_eq_map, keys, List.filter_map, List.map_map]
  refine List.map_congr_left fun entry hentry => ?_
  rw [Function.comp_apply, h.slot?_of_mem (List.mem_of_mem_filter hentry), Option.getD_some]

/-- The slots of variables of a visibility first come up in the order of the table. -/
theorem eraseDups_slotOf (gadgets : List Gadget) (visibility : Visibility) :
    (((occurrences gadgets).filter (·.visibility = visibility)).map
      (ofGadgets gadgets).slotOf).eraseDups =
        ((ofGadgets gadgets).table visibility).keys := by
  have hlinked := linked_ofGadgets gadgets
  have hslots : ((occurrences gadgets).filter (·.visibility = visibility)).map
      (ofGadgets gadgets).slotOf =
        (((occurrences gadgets).map SlotKey.ofVariable).filter (·.visibility = visibility)).map
          fun key => ((ofGadgets gadgets).slot? key).getD "" := by
    rw [List.filter_map, List.map_map]
    rfl
  rw [hslots, eraseDups_map, eraseDups_filter, ← keys_ofGadgets, hlinked.keys_table_eq_slots]
  -- Keys are told apart by their slots, as each of them is the key of a variable.
  intro key hkey other hother h
  obtain ⟨v, hv, rfl⟩ := List.mem_map.1 (List.mem_of_mem_filter hkey)
  obtain ⟨w, hw, rfl⟩ := List.mem_map.1 (List.mem_of_mem_filter hother)
  exact (hlinked.slotOf_eq_iff (holds_of_mem_occurrences hv) (holds_of_mem_occurrences hw)).1 h

end Slots

/-! ## Reading slots off a text -/

/-- A character that ends a word. -/
def endsWord (c : Char) : Bool :=
  !(c.isAlphanum || c == '_')

/-- A word that is the name of a slot: one of two letters and digits behind it. -/
def isSlotWord : List Char → Bool
  | [] => false
  | c :: digits => (c == 'w' || c == 'i') && !digits.isEmpty && digits.all Char.isDigit

/-- The names of slots among the words of a text, from left to right. -/
def slotWords (cs : List Char) : List (List Char) :=
  (cs.splitOnP endsWord).filter isSlotWord

/-- The slots that stand in a text, from left to right and from top to bottom. -/
def slotsIn (text : String) : List String :=
  (slotWords text.toList).map String.ofList

theorem slotWords_append_cons {c : Char} (hc : endsWord c = true) (cs ds : List Char) :
    slotWords (cs ++ c :: ds) = slotWords cs ++ slotWords ds := by
  rw [slotWords, List.splitOnP_append_cons cs ds hc, List.filter_append]
  rfl

theorem slotWords_cons {c : Char} (hc : endsWord c = true) (cs : List Char) :
    slotWords (c :: cs) = slotWords cs :=
  slotWords_append_cons hc [] cs

/-- The text is read as the name of one slot. -/
def IsSlot (w : String) : Prop :=
  slotWords w.toList = [w.toList]

theorem Slots.isSlot_name (visibility : Visibility) (n : Nat) : IsSlot (name visibility n) := by
  have hword : ∀ c ∈ (name visibility n).toList, endsWord c = false := by
    intro c hc
    simp [endsWord, isAlphanum_of_mem_name c hc]
  have hslot : isSlotWord (name visibility n).toList = true := by
    have hdigits : (Decimal.ofNat n).toList.all Char.isDigit = true :=
      List.all_eq_true.2 fun c => Decimal.isDigit_of_mem_ofNat
    have hne : (Decimal.ofNat n).toList ≠ [] := by simp [Decimal.ofNat]
    cases visibility <;> simp [name, letter, isSlotWord, hdigits, hne]
  rw [IsSlot, slotWords, List.splitOnP_eq_singleton hword, List.filter_singleton, hslot]
  rfl

theorem slotWords_keyword (kind : PredicateKind) : slotWords kind.keyword.toList = [] := by
  cases kind <;> decide

theorem slotWords_append_blankChars {words : List String} (h : ∀ w ∈ words, IsSlot w)
    (cs : List Char) :
    slotWords (cs ++ blankChars words) = slotWords cs ++ words.map String.toList := by
  induction words generalizing cs with
  | nil => simp [blankChars]
  | cons w rest ih =>
    obtain ⟨hw, hrest⟩ := List.forall_mem_cons.1 h
    have hsplit : cs ++ blankChars (w :: rest) = cs ++ ' ' :: (w.toList ++ blankChars rest) := rfl
    rw [hsplit, slotWords_append_cons rfl, ih hrest, hw, List.map_cons, List.singleton_append]

theorem Tree.slotWords_chars {t : Tree String} (h : ∀ w ∈ t.leaves, IsSlot w) :
    slotWords t.chars = t.leaves.map String.toList := by
  induction t with
  | leaf w => exact h w (by simp [leaves])
  | branch left right ihl ihr =>
    obtain ⟨hl, hr⟩ := List.forall_mem_append.1 h
    rw [chars, slotWords_cons rfl, slotWords_append_cons rfl, slotWords_cons rfl,
      slotWords_append_cons rfl, ihl hl, ihr hr, leaves, List.map_append]
    exact congrArg _ (List.append_nil _)

namespace Outline

/-- What stands in the place of variables, from left to right. -/
def shown {α : Type} : Outline α → List α
  | mimcHash preimage image => [image, preimage]
  | o => o.entries

theorem slotWords_chars {o : Outline String} (h : ∀ w ∈ o.shown, IsSlot w) :
    slotWords o.chars = o.shown.map String.toList := by
  cases o with
  | merkleTree root tree =>
    obtain ⟨hroot, htree⟩ := List.forall_mem_cons.1 h
    have hline : (merkleTree root tree).chars =
        (PredicateKind.merkleTree.keyword.toList ++ blankChars [root]) ++ ' ' :: tree.chars := by
      simp [chars, arguments, kind]
    rw [hline, slotWords_append_cons rfl, slotWords_append_blankChars (by simpa using hroot),
      slotWords_keyword, Tree.slotWords_chars htree]
    rfl
  | _ => exact (slotWords_append_blankChars h _).trans (by rw [slotWords_keyword]; rfl)

theorem shown_outline {α : Type} (f : Variable → α) (g : Gadget) :
    (g.outline f).shown = g.shown.map f := by
  unfold Gadget.shown
  cases g with
  | membership g =>
    simp [Gadget.outline, shown, entries, Gadget.bindings_membership, Function.comp_def]
  | merkleTree g =>
    simp [Gadget.outline, shown, entries, Gadget.bindings_merkleTree, Function.comp_def,
      Tree.leaves_map]
  | _ g => simp [Gadget.outline, shown, entries, Gadget.bindings_eq, Gadget.layout]

end Outline

/-- What is read off texts apart from each other is read off the joined text. -/
theorem intercalate_eq_flatMap {α β : Type} {f : List α → List β} {x : α}
    (hf : ∀ l l', f (l ++ x :: l') = f l ++ f l') {ls : List (List α)} (h : ls ≠ []) :
    f ([x].intercalate ls) = ls.flatMap f := by
  induction ls with
  | nil => exact absurd rfl h
  | cons l rest ih =>
    cases rest with
    | nil => simp [List.intercalate]
    | cons l' rest =>
      rw [List.intercalate_cons_cons, List.append_assoc, List.singleton_append, hf,
        ih (List.cons_ne_nil l' rest)]
      rfl

theorem slotWords_intercalate (lines : List (List Char)) :
    slotWords (['\n'].intercalate lines) = lines.flatMap slotWords := by
  cases lines with
  | nil => rfl
  | cons l rest => exact intercalate_eq_flatMap (slotWords_append_cons rfl) (List.cons_ne_nil l rest)

/-! ## Rendered statements -/

namespace Rendered

theorem exists_name_slotOf {gadgets : List Gadget} {v : Variable} (hv : v ∈ occurrences gadgets) :
    ∃ n, (Slots.ofGadgets gadgets).slotOf v = Slots.name v.visibility n :=
  (Slots.linked_ofGadgets gadgets).exists_name (Slots.holds_of_mem_occurrences hv)

/-- **The slots that stand in the text are those of the variables that the lines show.** -/
theorem slotsIn_text (gadgets : List Gadget) : slotsIn (render gadgets).text =
    (occurrences gadgets).map (Slots.ofGadgets gadgets).slotOf := by
  have hline : ∀ g ∈ gadgets,
      slotWords (g.outline (Slots.ofGadgets gadgets).slotOf).chars =
        (g.shown.map (Slots.ofGadgets gadgets).slotOf).map String.toList := by
    intro g hg
    rw [Outline.slotWords_chars, Outline.shown_outline]
    intro w hw
    rw [Outline.shown_outline] at hw
    obtain ⟨v, hv, rfl⟩ := List.mem_map.1 hw
    obtain ⟨n, hn⟩ := exists_name_slotOf (List.mem_flatMap.2 ⟨g, hg, hv⟩)
    rw [hn]
    exact Slots.isSlot_name v.visibility n
  rw [slotsIn, toList_text, slotWords_intercalate, slotOutlines, List.flatMap_map, List.flatMap_map,
    List.flatMap_congr hline, occurrences]
  simp [List.map_flatMap, Function.comp_def]

theorem keys_table_render (gadgets : List Gadget) (visibility : Visibility) :
    ((render gadgets).table visibility).keys =
      (List.range ((render gadgets).table visibility).length).map (Slots.name visibility) := by
  rw [table_render]
  exact (Slots.linked_ofGadgets gadgets).keys_table visibility

theorem isOf_slotOf {gadgets : List Gadget} {v : Variable} (hv : v ∈ occurrences gadgets)
    (visibility : Visibility) : Slots.isOf visibility ((Slots.ofGadgets gadgets).slotOf v) =
      decide (v.visibility = visibility) := by
  obtain ⟨n, hn⟩ := exists_name_slotOf hv
  rw [hn, Slots.isOf_name]

theorem eraseDups_slotsIn (gadgets : List Gadget) (visibility : Visibility) :
    ((slotsIn (render gadgets).text).filter (Slots.isOf visibility)).eraseDups =
      ((render gadgets).table visibility).keys := by
  rw [slotsIn_text, List.filter_map, table_render, ← Slots.eraseDups_slotOf]
  refine congrArg (fun vs => (List.map _ vs).eraseDups) (List.filter_congr fun v hv => ?_)
  exact isOf_slotOf hv visibility

theorem find?_table_render {gadgets : List Gadget} {v : Variable} (hv : v ∈ occurrences gadgets) :
    ((render gadgets).table v.visibility).find? ((Slots.ofGadgets gadgets).slotOf v) =
      some v.literal := by
  rw [table_render]
  exact (Slots.linked_ofGadgets gadgets).find?_table (Slots.holds_of_mem_occurrences hv)

/-- What a table has is read off the text, where it stands for a variable. -/
theorem exists_of_mem_table {gadgets : List Gadget} {visibility : Visibility}
    {entry : String × Literal} (h : entry ∈ (render gadgets).table visibility) :
    ∃ v ∈ occurrences gadgets, v.visibility = visibility ∧
      entry = ((Slots.ofGadgets gadgets).slotOf v, v.literal) := by
  have hkey : entry.1 ∈ ((render gadgets).table visibility).keys := List.mem_map_of_mem h
  rw [← eraseDups_slotsIn, List.mem_eraseDups, slotsIn_text, List.mem_filter] at hkey
  obtain ⟨hslot, hletter⟩ := hkey
  obtain ⟨v, hv, hslot⟩ := List.mem_map.1 hslot
  have hvisibility : v.visibility = visibility := by
    rw [← hslot, isOf_slotOf hv] at hletter
    exact of_decide_eq_true hletter
  have hnodup : ((render gadgets).table visibility).keys.Nodup := by
    rw [table_render]
    exact (Slots.linked_ofGadgets gadgets).nodup_keys_table visibility
  have hvalue := find?_table_render hv
  rw [hvisibility, hslot, Table.find?_of_mem hnodup h] at hvalue
  exact ⟨v, hv, hvisibility, Prod.ext hslot.symm (Option.some.inj hvalue)⟩

/-- Slots are given out by first use: what a rendered statement with the slots of its variables has
to fulfil. -/
structure FirstUse (rendered : Rendered) (gadgets : List Gadget) (slot : Variable → String) :
    Prop where
  /-- Every hole of every line is filled with the slot of its variable. -/
  lines_eq : rendered.lines = gadgets.map (Gadget.line slot)
  /-- From left to right and from top to bottom these are the slots that stand in the text. -/
  slotsIn_eq : slotsIn rendered.text = (occurrences gadgets).map slot
  /-- Slots have the letter of their visibility and are numbered from zero, in the order of the
  table. -/
  keys_eq : ∀ visibility, (rendered.table visibility).keys =
    (List.range (rendered.table visibility).length).map (Slots.name visibility)
  /-- All of them stand in the text, and no other slots with that letter do. They first appear in
  the order of the table. -/
  eraseDups_eq : ∀ visibility, ((slotsIn rendered.text).filter (Slots.isOf visibility)).eraseDups =
    (rendered.table visibility).keys
  /-- The table of the visibility of a variable has its value at its slot. -/
  find?_eq : ∀ g ∈ gadgets, ∀ v ∈ g.vars,
    (rendered.table v.visibility).find? (slot v) = some v.literal
  /-- Variables share a slot exactly if they agree in visibility, in the text of their reference and
  in their value. -/
  slot_eq_iff : ∀ g ∈ gadgets, ∀ v ∈ g.vars, ∀ g' ∈ gadgets, ∀ w ∈ g'.vars, slot v = slot w ↔
    v.visibility = w.visibility ∧
      v.reference.map Reference.text = w.reference.map Reference.text ∧ v.literal = w.literal
  /-- Every entry of a table is the slot and the value of a variable of that visibility. -/
  exists_of_mem : ∀ visibility, ∀ entry ∈ rendered.table visibility, ∃ g ∈ gadgets, ∃ v ∈ g.vars,
    v.visibility = visibility ∧ entry = (slot v, v.literal)

/-- **Slots are given out by first use**, whatever the gadgets. -/
theorem firstUse_render (gadgets : List Gadget) :
    (render gadgets).FirstUse gadgets (Slots.ofGadgets gadgets).slotOf where
  lines_eq := lines_render gadgets
  slotsIn_eq := slotsIn_text gadgets
  keys_eq := keys_table_render gadgets
  eraseDups_eq := eraseDups_slotsIn gadgets
  find?_eq g hg v hv := find?_table_render (mem_occurrences_iff.2 ⟨g, hg, hv⟩)
  slot_eq_iff g hg v hv g' hg' w hw := by
    rw [(Slots.linked_ofGadgets gadgets).slotOf_eq_iff (Slots.holds_ofGadgets g hg v hv)
      (Slots.holds_ofGadgets g' hg' w hw), SlotKey.ofVariable, SlotKey.ofVariable, SlotKey.mk.injEq]
  exists_of_mem visibility entry hentry := by
    obtain ⟨v, hv, hvisibility, rfl⟩ := exists_of_mem_table hentry
    obtain ⟨g, hg, hvg⟩ := mem_occurrences_iff.1 hv
    exact ⟨g, hg, v, hvg, hvisibility, rfl⟩

end Rendered

end Attestation
