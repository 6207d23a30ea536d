import Attestation.Compiler.Rendering
import Attestation.Proofs.Filling

/-!
# Slots of variables

Slots are given out while gadgets are rendered, and a key that has one keeps it: keys are only added
behind those there are (`Slots.Extends`). So every line can be read with the slots there are in the
end: `renderLines_eq_lines` says that rendering writes each gadget with the slots that `Slots.slotOf`
tells.

The slots of keys are kept apart from the tables with their values. What links them is
`Slots.Linked`: no key has two slots, the slots of a visibility are numbered in the order in which
they were given out, and its table lists them in this order, each with the value of its key. It
holds of no slots and as long as variables are given slots one by one (`Slots.Linked.assign`). So the
tables give the visibility and the value of a variable back from its slot
(`Rendered.identity?_slotOf`).
-/

namespace Attestation

open Text

namespace Slots

/-! ## Names of slots -/

/-- The slot has the letter of a visibility. -/
def isOf (visibility : Visibility) (slot : String) : Bool :=
  (letter visibility).toList.isPrefixOf slot.toList

theorem isOf_name (visibility other : Visibility) (n : Nat) :
    isOf visibility (name other n) = decide (other = visibility) := by
  cases visibility <;> cases other <;> simp [isOf, name, letter, List.isPrefixOf]

theorem name_inj {visibility other : Visibility} {m n : Nat} :
    name visibility m = name other n ↔ visibility = other ∧ m = n := by
  constructor
  · intro h
    have hother := isOf_name visibility other n
    rw [← h, isOf_name, decide_eq_true rfl] at hother
    obtain rfl := of_decide_eq_true hother.symm
    exact ⟨rfl, numbered_injective (letter other) h⟩
  · rintro ⟨rfl, rfl⟩
    rfl

theorem isAlphanum_of_mem_name {visibility : Visibility} {n : Nat} :
    ∀ c ∈ (name visibility n).toList, c.isAlphanum = true := by
  intro c hc
  rw [name, String.toList_append, List.mem_append] at hc
  rcases hc with hc | hc
  · cases visibility <;> simp_all [letter]
  · simp [Char.isAlphanum, Decimal.isDigit_of_mem_ofNat hc]

/-! ## Keys with slots -/

/-- The keys that have slots, in the order in which they were given them. -/
def keys (slots : Slots) : List SlotKey :=
  slots.assigned.map (·.1)

/-- The keys of a visibility with their slots. -/
def assignedOf (slots : Slots) (visibility : Visibility) : List (SlotKey × String) :=
  slots.assigned.filter (·.1.visibility = visibility)

/-- The slot of a variable whose key has one. -/
def slotOf (slots : Slots) (v : Variable) : String :=
  (slots.slot? (SlotKey.ofVariable v)).getD ""

/-- The key of a variable has a slot. -/
def Holds (slots : Slots) (v : Variable) : Prop :=
  SlotKey.ofVariable v ∈ slots.keys

/-- Keys have only been given slots, behind the others. -/
def Extends (slots later : Slots) : Prop :=
  slots.assigned <+: later.assigned

theorem Extends.refl (slots : Slots) : slots.Extends slots :=
  List.prefix_rfl

theorem Extends.trans {a b c : Slots} (hab : a.Extends b) (hbc : b.Extends c) : a.Extends c :=
  List.IsPrefix.trans hab hbc

variable {slots later : Slots} {key : SlotKey} {slot : String} {v w : Variable}

theorem slot?_eq_none_iff : slots.slot? key = none ↔ key ∉ slots.keys := by
  rw [slot?, List.lookup_eq_none_iff, keys, List.mem_map]
  simp only [bne_iff_ne, not_exists, not_and]
  exact forall₂_congr fun _ _ => ne_comm

theorem mem_of_slot? (h : slots.slot? key = some slot) : (key, slot) ∈ slots.assigned := by
  obtain ⟨before, behind, hassigned, -⟩ := List.lookup_eq_some_iff.1 h
  simp [hassigned]

theorem Holds.slot?_eq (hv : slots.Holds v) :
    slots.slot? (SlotKey.ofVariable v) = some (slots.slotOf v) := by
  cases h : slots.slot? (SlotKey.ofVariable v) with
  | none => exact absurd hv (slot?_eq_none_iff.1 h)
  | some slot => rw [slotOf, h, Option.getD_some]

theorem Holds.mono (hv : slots.Holds v) (h : slots.Extends later) : later.Holds v :=
  (h.map _).subset hv

/-- A variable keeps its slot. -/
theorem Extends.slotOf_eq (h : slots.Extends later) (hv : slots.Holds v) :
    later.slotOf v = slots.slotOf v := by
  obtain ⟨added, hadded⟩ := h
  have hslot : slots.assigned.lookup (SlotKey.ofVariable v) = some (slots.slotOf v) := hv.slot?_eq
  rw [slotOf, slot?, ← hadded, List.lookup_append, hslot, Option.some_or, Option.getD_some]

/-! ## What links slots and values -/

/-- What holds between the slots of keys and the tables of values. -/
structure Linked (slots : Slots) : Prop where
  /-- No key has two slots. -/
  nodup_keys : slots.keys.Nodup
  /-- The slots of a visibility are numbered in the order in which they were given out. -/
  slots_eq : ∀ visibility, (slots.assignedOf visibility).map (·.2) =
    (List.range (slots.assignedOf visibility).length).map (name visibility)
  /-- The table of a visibility lists its slots in the same order, with the values of the keys. -/
  table_eq : ∀ visibility, slots.table visibility =
    (slots.assignedOf visibility).map fun entry => (entry.2, entry.1.literal)

theorem linked_empty : empty.Linked where
  nodup_keys := List.nodup_nil
  slots_eq _ := rfl
  table_eq visibility := by cases visibility <;> rfl

theorem assigned_add (slots : Slots) (key : SlotKey) (slot : String) :
    (slots.add key slot).assigned = slots.assigned ++ [(key, slot)] := by
  rw [add]
  split <;> rfl

theorem assignedOf_add (slots : Slots) (key : SlotKey) (slot : String) (visibility : Visibility) :
    (slots.add key slot).assignedOf visibility =
      if key.visibility = visibility then slots.assignedOf visibility ++ [(key, slot)]
        else slots.assignedOf visibility := by
  rw [assignedOf, assigned_add, List.filter_append]
  split_ifs with h <;> simp [assignedOf, h]

theorem table_add (slots : Slots) (key : SlotKey) (slot : String) (visibility : Visibility) :
    (slots.add key slot).table visibility =
      if key.visibility = visibility then (slots.table visibility).insert slot key.literal
        else slots.table visibility := by
  cases hkey : key.visibility <;> cases visibility <;> simp [add, table, hkey]

namespace Linked

theorem keys_table_eq_map (h : slots.Linked) (visibility : Visibility) :
    (slots.table visibility).keys = (slots.assignedOf visibility).map (·.2) := by
  rw [h.table_eq, Table.keys, List.map_map]
  rfl

theorem length_table (h : slots.Linked) (visibility : Visibility) :
    (slots.table visibility).length = (slots.assignedOf visibility).length := by
  rw [h.table_eq, List.length_map]

/-- The slots of a table are numbered. -/
theorem keys_table (h : slots.Linked) (visibility : Visibility) : (slots.table visibility).keys =
    (List.range (slots.table visibility).length).map (name visibility) := by
  rw [h.keys_table_eq_map, h.slots_eq, h.length_table]

theorem nodup_keys_table (h : slots.Linked) (visibility : Visibility) :
    (slots.table visibility).keys.Nodup := by
  rw [h.keys_table]
  exact List.Nodup.map (fun _ _ heq => (name_inj.1 heq).2) List.nodup_range

/-- **A key that is given the next slot goes into the table of its visibility.** -/
theorem add (h : slots.Linked) (hkey : key ∉ slots.keys) {n : Nat}
    (hn : n = (slots.table key.visibility).length) :
    (slots.add key (name key.visibility n)).Linked where
  nodup_keys := by
    rw [keys, assigned_add, List.map_append, List.map_singleton, ← List.concat_eq_append]
    exact List.Nodup.concat hkey h.nodup_keys
  slots_eq visibility := by
    rw [assignedOf_add]
    split_ifs with hvisibility
    · subst hvisibility
      rw [List.map_append, h.slots_eq, List.length_append, List.length_singleton, List.range_succ,
        List.map_append, hn, h.length_table]
      rfl
    · exact h.slots_eq visibility
  table_eq visibility := by
    rw [table_add, assignedOf_add]
    split_ifs with hvisibility
    · subst hvisibility
      have hfresh : name key.visibility n ∉ (slots.table key.visibility).keys := by
        rw [h.keys_table, ← hn]
        simp [name_inj]
      rw [Table.insert_of_notMem hfresh, h.table_eq, List.map_append]
      rfl
    · exact h.table_eq visibility

theorem slot?_of_mem (h : slots.Linked) (hmem : (key, slot) ∈ slots.assigned) :
    slots.slot? key = some slot := by
  cases hslot : slots.slot? key with
  | none => exact absurd (List.mem_map_of_mem hmem) (slot?_eq_none_iff.1 hslot)
  | some other =>
    have hentry := List.inj_on_of_nodup_map h.nodup_keys hmem (mem_of_slot? hslot) rfl
    cases hentry
    rfl

/-- The slot of a key is one of those of its visibility. -/
theorem exists_name_of_mem (h : slots.Linked) (hmem : (key, slot) ∈ slots.assigned) :
    ∃ n, slot = name key.visibility n := by
  have hslot : slot ∈ (slots.assignedOf key.visibility).map (·.2) :=
    List.mem_map_of_mem (List.mem_filter.2 ⟨hmem, by simp⟩)
  rw [h.slots_eq] at hslot
  obtain ⟨n, -, hn⟩ := List.mem_map.1 hslot
  exact ⟨n, hn.symm⟩

theorem exists_name (h : slots.Linked) (hv : slots.Holds v) :
    ∃ n, slots.slotOf v = name v.visibility n :=
  h.exists_name_of_mem (mem_of_slot? hv.slot?_eq)

theorem isAlphanum_of_mem_slotOf (h : slots.Linked) (v : Variable) :
    ∀ c ∈ (slots.slotOf v).toList, c.isAlphanum = true := by
  by_cases hv : slots.Holds v
  · obtain ⟨n, hn⟩ := h.exists_name hv
    rw [hn]
    exact isAlphanum_of_mem_name
  · rw [slotOf, slot?_eq_none_iff.2 hv]
    simp

/-- Keys that have a slot have it alone. -/
theorem key_eq_of_mem (h : slots.Linked) {other : SlotKey} (hmem : (key, slot) ∈ slots.assigned)
    (hother : (other, slot) ∈ slots.assigned) : key = other := by
  obtain ⟨m, hm⟩ := h.exists_name_of_mem hmem
  obtain ⟨n, hn⟩ := h.exists_name_of_mem hother
  have hvisibility : key.visibility = other.visibility := (name_inj.1 (hm.symm.trans hn)).1
  have hnodup := h.keys_table_eq_map key.visibility ▸ h.nodup_keys_table key.visibility
  have hentry := List.inj_on_of_nodup_map hnodup (List.mem_filter.2 ⟨hmem, by simp⟩)
    (List.mem_filter.2 ⟨hother, by simp [hvisibility]⟩) rfl
  exact congrArg Prod.fst hentry

/-- **Variables share a slot exactly if they share the key.** -/
theorem slotOf_eq_iff (h : slots.Linked) (hv : slots.Holds v) (hw : slots.Holds w) :
    slots.slotOf v = slots.slotOf w ↔ SlotKey.ofVariable v = SlotKey.ofVariable w := by
  refine ⟨fun heq => ?_, fun heq => by rw [slotOf, slotOf, heq]⟩
  exact h.key_eq_of_mem (mem_of_slot? hv.slot?_eq) (heq ▸ mem_of_slot? hw.slot?_eq)

/-- The table has the value of a variable at its slot. -/
theorem find?_table (h : slots.Linked) (hv : slots.Holds v) :
    (slots.table v.visibility).find? (slots.slotOf v) = some v.literal := by
  apply Table.find?_of_mem (h.nodup_keys_table v.visibility)
  rw [h.table_eq]
  exact List.mem_map.2 ⟨_, List.mem_filter.2 ⟨mem_of_slot? hv.slot?_eq, decide_eq_true rfl⟩, rfl⟩

/-- The tables of witness and disclosed slots share no names. -/
theorem find?_table_of_ne (h : slots.Linked) (hv : slots.Holds v) {visibility : Visibility}
    (hne : visibility ≠ v.visibility) : (slots.table visibility).find? (slots.slotOf v) = none := by
  obtain ⟨n, hn⟩ := h.exists_name hv
  rw [Table.find?_eq_none_iff, h.keys_table, hn]
  intro hmem
  obtain ⟨m, -, hm⟩ := List.mem_map.1 hmem
  exact hne (name_inj.1 hm).1

end Linked

/-! ## Giving out slots -/

theorem extends_assign (slots : Slots) (v : Variable) : slots.Extends (slots.assign v).2 := by
  unfold assign
  dsimp only
  split
  · exact Extends.refl slots
  · rw [Extends, assigned_add]
    exact List.prefix_append _ _

/-- The slot that is given out is the one the key has from then on. -/
theorem slot?_assign (slots : Slots) (v : Variable) :
    (slots.assign v).2.slot? (SlotKey.ofVariable v) = some (slots.assign v).1 := by
  unfold assign
  dsimp only
  split
  case h_1 slot hslot => exact hslot
  case h_2 hnone =>
    have hnone : slots.assigned.lookup (SlotKey.ofVariable v) = none := hnone
    rw [slot?, assigned_add, List.lookup_append, hnone, List.lookup_cons_self, Option.none_or]

theorem holds_assign (slots : Slots) (v : Variable) : (slots.assign v).2.Holds v := by
  by_contra hnone
  have hslot := slots.slot?_assign v
  rw [slot?_eq_none_iff.2 hnone] at hslot
  cases hslot

theorem assign_fst (slots : Slots) (v : Variable) :
    (slots.assign v).1 = (slots.assign v).2.slotOf v := by
  rw [slotOf, slot?_assign, Option.getD_some]

theorem Linked.assign (h : slots.Linked) (v : Variable) : (slots.assign v).2.Linked := by
  unfold Slots.assign
  dsimp only
  split
  case h_1 => exact h
  case h_2 hnone => exact h.add (slot?_eq_none_iff.1 hnone) rfl

theorem extends_assignAll (slots : Slots) (bindings : List (String × Variable)) :
    slots.Extends (slots.assignAll bindings).2 := by
  induction bindings generalizing slots with
  | nil => exact Extends.refl slots
  | cons binding rest ih => exact (extends_assign slots binding.2).trans (ih _)

theorem holds_assignAll (slots : Slots) {bindings : List (String × Variable)} :
    ∀ binding ∈ bindings, (slots.assignAll bindings).2.Holds binding.2 := by
  induction bindings generalizing slots with
  | nil => simp
  | cons binding rest ih =>
    refine List.forall_mem_cons.2 ⟨?_, ih _⟩
    exact (holds_assign slots binding.2).mono (extends_assignAll _ rest)

theorem Linked.assignAll (h : slots.Linked) (bindings : List (String × Variable)) :
    (slots.assignAll bindings).2.Linked := by
  induction bindings generalizing slots with
  | nil => exact h
  | cons binding rest ih => exact ih (h.assign binding.2)

/-- The slots that are given out are those of any later time. -/
theorem assignAll_fst {bindings : List (String × Variable)}
    (h : (slots.assignAll bindings).2.Extends later) :
    (slots.assignAll bindings).1 = bindings.map fun (hole, v) => (hole, later.slotOf v) := by
  induction bindings generalizing slots with
  | nil => rfl
  | cons binding rest ih =>
    obtain ⟨hole, v⟩ := binding
    have hlater : (slots.assign v).2.Extends later := (extends_assignAll _ rest).trans h
    have hslot : (slots.assign v).1 = later.slotOf v := by
      rw [assign_fst, hlater.slotOf_eq (holds_assign slots v)]
    have hrest : ((slots.assign v).2.assignAll rest).1 =
        rest.map fun (hole, v) => (hole, later.slotOf v) := ih h
    change (hole, (slots.assign v).1) :: ((slots.assign v).2.assignAll rest).1 = _
    rw [hslot, hrest]
    rfl

end Slots

/-! ## Lines -/

theorem extends_renderLines (slots : Slots) (gadgets : List Gadget) :
    slots.Extends (renderLines slots gadgets).2 := by
  induction gadgets generalizing slots with
  | nil => exact Slots.Extends.refl slots
  | cons g rest ih => exact (Slots.extends_assignAll slots g.bindings).trans (ih _)

theorem holds_renderLines (slots : Slots) {gadgets : List Gadget} :
    ∀ g ∈ gadgets, ∀ v ∈ g.vars, (renderLines slots gadgets).2.Holds v := by
  induction gadgets generalizing slots with
  | nil => simp
  | cons g rest ih =>
    refine List.forall_mem_cons.2 ⟨fun v hv => ?_, ih _⟩
    obtain ⟨hole, hbinding⟩ := Gadget.exists_binding_of_mem_vars hv
    exact (Slots.holds_assignAll slots _ hbinding).mono (extends_renderLines _ rest)

theorem linked_renderLines {slots : Slots} (h : slots.Linked) (gadgets : List Gadget) :
    (renderLines slots gadgets).2.Linked := by
  induction gadgets generalizing slots with
  | nil => exact h
  | cons g rest ih => exact ih (h.assignAll g.bindings)

/-- **Every line has the slots that its variables have in the end.** -/
theorem renderLines_eq_lines {slots later : Slots} {gadgets : List Gadget} (hlinked : later.Linked)
    (h : (renderLines slots gadgets).2.Extends later) :
    (renderLines slots gadgets).1 = gadgets.map (Gadget.line later.slotOf) := by
  induction gadgets generalizing slots with
  | nil => rfl
  | cons g rest ih =>
    have hlater : (slots.assignAll g.bindings).2.Extends later :=
      (extends_renderLines _ rest).trans h
    have hpercent : ∀ binding ∈ g.bindings, '%' ∉ (later.slotOf binding.2).toList := by
      intro binding _ hmem
      exact absurd (hlinked.isAlphanum_of_mem_slotOf binding.2 _ hmem) (by decide)
    change Gadget.fillHoles g.template (slots.assignAll g.bindings).1 ::
      (renderLines (slots.assignAll g.bindings).2 rest).1 = _
    rw [Slots.assignAll_fst hlater, g.fillHoles_eq_line hpercent, ih h]
    rfl

/-- The slots that there are when gadgets have been rendered. -/
def Slots.ofGadgets (gadgets : List Gadget) : Slots :=
  (renderLines .empty gadgets).2

/-- **Of all that is rendered, slots and values are linked.** -/
theorem Slots.linked_ofGadgets (gadgets : List Gadget) : (ofGadgets gadgets).Linked :=
  linked_renderLines linked_empty gadgets

theorem Slots.holds_ofGadgets {gadgets : List Gadget} :
    ∀ g ∈ gadgets, ∀ v ∈ g.vars, (ofGadgets gadgets).Holds v :=
  holds_renderLines .empty

theorem text_render (gadgets : List Gadget) : (render gadgets).text =
    String.intercalate "\n" (gadgets.map (Gadget.line (Slots.ofGadgets gadgets).slotOf)) :=
  congrArg (String.intercalate "\n")
    (renderLines_eq_lines (Slots.linked_ofGadgets gadgets) (Slots.Extends.refl _))

namespace Rendered

/-- The slots of a visibility and their values. -/
def table (rendered : Rendered) : Visibility → Table Literal
  | .witness => rendered.witness
  | .disclosed => rendered.disclosed

theorem table_render (gadgets : List Gadget) (visibility : Visibility) :
    (render gadgets).table visibility = (Slots.ofGadgets gadgets).table visibility := by
  cases visibility <;> rfl

/-- The visibility and the value behind a slot, as the tables tell them. -/
def identity? (rendered : Rendered) (slot : String) : Option Identity :=
  ((rendered.witness.find? slot).map (⟨.witness, ·⟩)).or
    ((rendered.disclosed.find? slot).map (⟨.disclosed, ·⟩))

/-- **The tables tell what stands behind the slot of a variable.** -/
theorem identity?_slotOf {gadgets : List Gadget} {g : Gadget} (hg : g ∈ gadgets) {v : Variable}
    (hv : v ∈ g.vars) :
    (render gadgets).identity? ((Slots.ofGadgets gadgets).slotOf v) = some v.identity := by
  have hlinked := Slots.linked_ofGadgets gadgets
  have hholds := Slots.holds_ofGadgets g hg v hv
  have hfind := hlinked.find?_table hholds
  change (((Slots.ofGadgets gadgets).table .witness).find? _ |>.map _).or
    (((Slots.ofGadgets gadgets).table .disclosed).find? _ |>.map _) = _
  cases hvisibility : v.visibility with
  | witness =>
    rw [hvisibility] at hfind
    simp [hfind, Variable.identity, hvisibility]
  | disclosed =>
    rw [hvisibility] at hfind
    have hne : Visibility.witness ≠ v.visibility := by simp [hvisibility]
    simp [hfind, hlinked.find?_table_of_ne hholds hne, Variable.identity, hvisibility]

end Rendered

end Attestation
