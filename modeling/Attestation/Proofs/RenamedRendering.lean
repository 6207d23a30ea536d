import Attestation.Compiler.Rendering
import Attestation.Proofs.Layout
import Attestation.Proofs.Renaming

/-!
# Rendered statements without witness values

Lines name slots and no values, and slots are shared by what is the same. So the text of renamed
gadgets is that of the gadgets themselves, the disclosed slots have the same values, and there are
the same witness slots: `render_rename`.
-/

namespace Attestation

variable (ρ : Renaming)

/-! ## Layouts -/

/-- The part of a line with another value for a witness. -/
def Piece.rename : Piece → Piece
  | words text => words text
  | hole name v => hole name (v.rename ρ)

theorem Piece.template_rename (p : Piece) : (p.rename ρ).template = p.template := by
  cases p <;> rfl

theorem Piece.binding?_rename (p : Piece) :
    (p.rename ρ).binding? = p.binding?.map fun (name, v) => (name, v.rename ρ) := by
  cases p <;> rfl

theorem Membership.elementPieces_rename (position : Nat) (elements : List Variable) :
    elementPieces position (elements.map (Variable.rename ρ)) =
      (elementPieces position elements).map (Piece.rename ρ) := by
  induction elements generalizing position with
  | nil => rfl
  | cons e rest ih => simp [elementPieces, Piece.rename, ih]

theorem MerkleTree.treePieces_rename (position : Nat) (t : Tree Variable) :
    treePieces position (t.map (Variable.rename ρ)) =
      ((treePieces position t).1.map (Piece.rename ρ), (treePieces position t).2) := by
  induction t generalizing position with
  | leaf v => rfl
  | branch left right ihl ihr => simp [Tree.map, treePieces, ihl, ihr, Piece.rename]

namespace Gadget

variable (g : Gadget)

theorem layout_rename : (g.rename ρ).layout = g.layout.map (Piece.rename ρ) := by
  cases g with
  | membership g =>
    simp only [rename, Membership.rename, layout, Membership.elementPieces_rename]
    rfl
  | merkleTree g =>
    simp only [rename, MerkleTree.rename, layout, MerkleTree.treePieces_rename]
    rfl
  | _ => rfl

theorem template_rename : (g.rename ρ).template = g.template := by
  simp [template_eq, layout_rename, Function.comp_def, Piece.template_rename]

theorem bindings_rename :
    (g.rename ρ).bindings = g.bindings.map fun (name, v) => (name, v.rename ρ) := by
  simp only [bindings_eq, layout_rename, List.filterMap_map, List.map_filterMap]
  exact congrArg (List.filterMap · g.layout) (funext (Piece.binding?_rename ρ))

end Gadget

/-! ## Slots -/

/-- The key of a variable with another value for a witness. -/
def SlotKey.rename (key : SlotKey) : SlotKey :=
  match key.visibility with
  | .witness => { key with literal := ρ.literal key.literal }
  | .disclosed => key

theorem SlotKey.visibility_rename (key : SlotKey) : (key.rename ρ).visibility = key.visibility := by
  obtain ⟨visibility, origin, literal⟩ := key
  cases visibility <;> rfl

theorem SlotKey.rename_injective : Function.Injective (SlotKey.rename ρ) := by
  intro key other h
  have hvisibility : key.visibility = other.visibility := by
    rw [← key.visibility_rename ρ, h, other.visibility_rename]
  obtain ⟨visibility, origin, literal⟩ := key
  obtain ⟨visibility', origin', literal'⟩ := other
  cases hvisibility
  cases visibility with
  | witness =>
    simp only [SlotKey.rename, SlotKey.mk.injEq, true_and] at h
    rw [h.1, ρ.injective h.2]
  | disclosed => exact h

theorem SlotKey.ofVariable_rename (v : Variable) :
    SlotKey.ofVariable (v.rename ρ) = (SlotKey.ofVariable v).rename ρ := by
  cases hv : v.visibility with
  | witness =>
    simp [SlotKey.ofVariable, SlotKey.rename, Variable.literal_rename_of_witness ρ hv, hv]
  | disclosed =>
    simp [SlotKey.ofVariable, SlotKey.rename, Variable.literal_rename_of_disclosed ρ hv, hv]

theorem lookup_map_of_injective {α β γ : Type} [DecidableEq α] [DecidableEq β] {φ : α → β}
    (hφ : Function.Injective φ) (a : α) (l : List (α × γ)) :
    (l.map fun entry => (φ entry.1, entry.2)).lookup (φ a) = l.lookup a := by
  induction l with
  | nil => rfl
  | cons entry rest ih =>
    obtain ⟨key, value⟩ := entry
    simp [List.lookup_cons, ih, hφ.eq_iff, beq_eq_decide]

namespace Slots

/-- The slots of renamed gadgets. -/
def rename (slots : Slots) : Slots where
  assigned := slots.assigned.map fun entry => (entry.1.rename ρ, entry.2)
  witness := slots.witness.mapValues ρ.literal
  disclosed := slots.disclosed

variable (slots : Slots)

theorem slot?_rename (key : SlotKey) : (slots.rename ρ).slot? (key.rename ρ) = slots.slot? key :=
  lookup_map_of_injective (SlotKey.rename_injective ρ) key slots.assigned

theorem length_table_rename (visibility : Visibility) :
    ((slots.rename ρ).table visibility).length = (slots.table visibility).length := by
  cases visibility with
  | witness => exact List.length_map _
  | disclosed => rfl

theorem add_rename (key : SlotKey) (slot : String) :
    (slots.rename ρ).add (key.rename ρ) slot = (slots.add key slot).rename ρ := by
  obtain ⟨visibility, origin, literal⟩ := key
  cases visibility with
  | witness => simp [add, rename, SlotKey.rename, Table.insert_mapValues]
  | disclosed => simp [add, rename, SlotKey.rename]

/-- A renamed variable has the slot of the variable. -/
theorem assign_rename (v : Variable) :
    (slots.rename ρ).assign (v.rename ρ) =
      ((slots.assign v).1, (slots.assign v).2.rename ρ) := by
  unfold assign
  dsimp only
  rw [SlotKey.ofVariable_rename, slot?_rename, Variable.visibility_rename, length_table_rename]
  cases slots.slot? (SlotKey.ofVariable v) with
  | some slot => rfl
  | none => simp only [add_rename]

theorem assignAll_rename (bindings : List (String × Variable)) :
    (slots.rename ρ).assignAll (bindings.map fun (name, v) => (name, v.rename ρ)) =
      ((slots.assignAll bindings).1, (slots.assignAll bindings).2.rename ρ) := by
  induction bindings generalizing slots with
  | nil => rfl
  | cons binding rest ih => simp [assignAll, assign_rename, ih]

end Slots

/-! ## Lines and tables -/

theorem renderLines_rename (slots : Slots) (gadgets : List Gadget) :
    renderLines (slots.rename ρ) (gadgets.map (Gadget.rename ρ)) =
      ((renderLines slots gadgets).1, (renderLines slots gadgets).2.rename ρ) := by
  induction gadgets generalizing slots with
  | nil => rfl
  | cons g rest ih =>
    simp [renderLines, Gadget.bindings_rename, Gadget.template_rename, Slots.assignAll_rename, ih]

/-- **Renamed gadgets are rendered as the gadgets are**, but for the values of witness slots. -/
theorem render_rename (gadgets : List Gadget) :
    (render (gadgets.map (Gadget.rename ρ))).text = (render gadgets).text ∧
    (render (gadgets.map (Gadget.rename ρ))).disclosed = (render gadgets).disclosed ∧
    (render (gadgets.map (Gadget.rename ρ))).witness.keys = (render gadgets).witness.keys := by
  have h := renderLines_rename ρ .empty gadgets
  have hempty : Slots.rename ρ .empty = .empty := rfl
  rw [hempty] at h
  unfold render
  rw [h]
  exact ⟨rfl, rfl, by simp [Slots.rename, Table.keys, Table.mapValues]⟩

end Attestation
