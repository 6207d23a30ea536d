import Attestation.Gadget.Format
import Mathlib.Data.List.Basic

/-!
# Layouts of gadgets

A template and the variables bound to its holes are kept apart from each other. The layout of a
gadget has both in one: it is a line of words and of holes, each hole with its name and its variable.
Its holes shown by name, it is the template (`Gadget.template_eq`); and its holes from left to right
are the bindings, so variables are bound in the order in which the template shows them
(`Gadget.bindings_eq`).
-/

namespace Attestation

open Text

/-- A part of a line. -/
inductive Piece where
  | words (text : String)
  | hole (name : String) (v : Variable)
  deriving DecidableEq, Repr

namespace Piece

/-- A part as a template shows it. -/
def template : Piece → String
  | words text => text
  | hole name _ => placeholder name

/-- The variable a hole is for, by name. -/
def binding? : Piece → Option (String × Variable)
  | words _ => none
  | hole name v => some (name, v)

@[simp] theorem filterMap_binding?_words (text : String) (pieces : List Piece) :
    (words text :: pieces).filterMap binding? = pieces.filterMap binding? := rfl

@[simp] theorem filterMap_binding?_hole (name : String) (v : Variable) (pieces : List Piece) :
    (hole name v :: pieces).filterMap binding? = (name, v) :: pieces.filterMap binding? := rfl

end Piece

namespace Membership

/-- The holes for elements, the first of which is at a position, each behind a blank. -/
def elementPieces (position : Nat) : List Variable → List Piece
  | [] => []
  | element :: rest =>
    .words " " :: .hole (elementName position) element :: elementPieces (position + 1) rest

end Membership

namespace MerkleTree

/-- The holes for the leaves of a tree in parentheses, and the number of leaves with those
before it. -/
def treePieces (position : Nat) : Tree Variable → List Piece × Nat
  | .leaf v => ([.hole (leafName position) v], position + 1)
  | .branch left right =>
    let (leftPieces, middle) := treePieces position left
    let (rightPieces, stop) := treePieces middle right
    (.words "(" :: leftPieces ++ .words ", " :: rightPieces ++ [.words ")"], stop)

end MerkleTree

/-- The line of a gadget. -/
def Gadget.layout : Gadget → List Piece
  | equality g => [.words "EQUALS ", .hole "left" g.left, .words " ", .hole "right" g.right]
  | inequality g => [.words "NOT_EQUALS ", .hole "left" g.left, .words " ", .hole "right" g.right]
  | bounds g =>
    [.words "BOUND ", .hole "value" g.value, .words " ", .hole "min" g.min, .words " ",
      .hole "max" g.max]
  | membership g =>
    [.words "SET_MEMBERSHIP ", .hole "member" g.member] ++ Membership.elementPieces 0 g.set
  | mimcHash g =>
    [.words "MIMC_HASH ", .hole "image" g.image, .words " ", .hole "preimage" g.preimage]
  | merkleTree g =>
    [.words "MERKLE_TREE ", .hole "root" g.root, .words " "] ++ (MerkleTree.treePieces 0 g.tree).1

/-! ## Numbered names -/

theorem Text.Decimal.ofNat_injective : Function.Injective Decimal.ofNat := by
  intro m n h
  have hdigits := congrArg (fun s : String => Nat.ofDigitChars 10 s.toList 0) h
  simpa [Decimal.ofNat, Nat.ofDigitChars_toDigits] using hdigits

/-- A name with a number behind it tells the number. -/
theorem numbered_injective (stem : String) :
    Function.Injective fun n => stem ++ Decimal.ofNat n := by
  intro m n h
  have hlist := congrArg String.toList h
  simp only [String.toList_append] at hlist
  exact Decimal.ofNat_injective (String.toList_inj.1 (List.append_cancel_left hlist))

/-! ## Formats of layouts -/

namespace Format

/-- The format that a layout stands for. -/
def ofPieces (pieces : List Piece) : Format :=
  ⟨String.join (pieces.map Piece.template), pieces.filterMap Piece.binding?⟩

theorem write_append (format : Format) (text more : String) :
    format.write (text ++ more) = (format.write text).write more := by
  simp [write, String.append_assoc]

theorem write_ofPieces (pieces : List Piece) (text : String) :
    (ofPieces pieces).write text = ofPieces (pieces ++ [.words text]) := by
  simp [ofPieces, write, Piece.template, Piece.binding?]

/-- Going on with a hole. -/
theorem bind_ofPieces {pieces : List Piece} {name : String}
    (h : name ∉ Table.keys (pieces.filterMap Piece.binding?)) (v : Variable) :
    ((ofPieces pieces).write (placeholder name)).bind name v =
      ofPieces (pieces ++ [.hole name v]) := by
  simp [ofPieces, write, bind, Piece.template, Table.insert_of_notMem h]

end Format

/-! ## Numbered holes -/

/-- No hole has the name that is numbered by a position, or a later one. -/
def Unnumbered (stem : String) (position : Nat) (pieces : List Piece) : Prop :=
  ∀ n, position ≤ n → stem ++ Decimal.ofNat n ∉ Table.keys (pieces.filterMap Piece.binding?)

namespace Unnumbered

variable {stem : String} {position : Nat} {pieces : List Piece}

theorem notMem (h : Unnumbered stem position pieces) :
    stem ++ Decimal.ofNat position ∉ Table.keys (pieces.filterMap Piece.binding?) :=
  h position (Nat.le_refl position)

theorem words (h : Unnumbered stem position pieces) (text : String) :
    Unnumbered stem position (pieces ++ [.words text]) := by
  intro n hn
  simpa [Table.keys] using h n hn

theorem hole (h : Unnumbered stem position pieces) (v : Variable) :
    Unnumbered stem (position + 1) (pieces ++ [.hole (stem ++ Decimal.ofNat position) v]) := by
  intro n hn hmem
  rw [List.filterMap_append, Table.keys, List.map_append, List.mem_append] at hmem
  rcases hmem with hmem | hmem
  · exact h n (Nat.le_of_succ_le hn) hmem
  · have heq := numbered_injective stem (List.mem_singleton.1 hmem)
    omega

end Unnumbered

/-- Elements are added as holes behind those there are. -/
theorem Membership.foldl_addElement {position : Nat} {pieces : List Piece}
    (h : Unnumbered "set_" position pieces) (elements : List Variable) :
    (elements.zipIdx position).foldl addElement (Format.ofPieces pieces) =
      Format.ofPieces (pieces ++ elementPieces position elements) := by
  induction elements generalizing position pieces with
  | nil => rw [elementPieces, List.append_nil]; rfl
  | cons e rest ih =>
    have hblank := h.words " "
    have hstep : addElement (Format.ofPieces pieces) (e, position) =
        Format.ofPieces (pieces ++ [.words " "] ++ [.hole (elementName position) e]) := by
      rw [addElement, Format.write_append, Format.write_ofPieces]
      exact Format.bind_ofPieces hblank.notMem e
    rw [List.zipIdx_cons, List.foldl_cons, hstep, elementPieces]
    exact (ih (hblank.hole e)).trans (by simp [elementName])

/-- A tree is added as the holes for its leaves, behind those there are. -/
theorem MerkleTree.addTree_ofPieces {position : Nat} {pieces : List Piece}
    (h : Unnumbered "leaf_" position pieces) (t : Tree Variable) :
    addTree t (Format.ofPieces pieces, position) =
        (Format.ofPieces (pieces ++ (treePieces position t).1), (treePieces position t).2) ∧
      Unnumbered "leaf_" (treePieces position t).2 (pieces ++ (treePieces position t).1) := by
  induction t generalizing position pieces with
  | leaf v =>
    refine ⟨?_, h.hole v⟩
    rw [addTree, treePieces]
    exact congrArg (·, position + 1) (Format.bind_ofPieces h.notMem v)
  | branch left right ihl ihr =>
    obtain ⟨hleft, h⟩ := ihl (h.words "(")
    obtain ⟨hright, h⟩ := ihr (h.words ", ")
    rw [addTree, Format.write_ofPieces, hleft]
    dsimp only
    rw [Format.write_ofPieces, hright]
    dsimp only
    rw [Format.write_ofPieces, treePieces]
    refine ⟨?_, ?_⟩
    · simp
    · simpa using h.words ")"

/-! ## Formats of gadgets -/

namespace Gadget

theorem format_eq (g : Gadget) : g.format = Format.ofPieces g.layout := by
  cases g with
  | membership g =>
    have hstart : (Format.ofTemplate "SET_MEMBERSHIP %(member)").bind "member" g.member =
        Format.ofPieces [.words "SET_MEMBERSHIP ", .hole "member" g.member] := by
      simp [Format.ofPieces, Format.ofTemplate, Format.bind, Table.insert, Piece.template,
        placeholder]
    rw [format, Membership.format, hstart]
    refine Membership.foldl_addElement (fun n _ => ?_) g.set
    simp [Table.keys, ← String.toList_inj]
  | merkleTree g =>
    have hstart : (Format.ofTemplate "MERKLE_TREE %(root) ").bind "root" g.root =
        Format.ofPieces [.words "MERKLE_TREE ", .hole "root" g.root, .words " "] := by
      simp [Format.ofPieces, Format.ofTemplate, Format.bind, Table.insert, Piece.template,
        placeholder]
    have hfresh : Unnumbered "leaf_" 0
        [.words "MERKLE_TREE ", .hole "root" g.root, .words " "] := fun n _ => by
      simp [Table.keys, ← String.toList_inj]
    rw [format, MerkleTree.format, hstart, (MerkleTree.addTree_ofPieces hfresh g.tree).1]
    rfl
  | _ g =>
    simp [format, layout, Format.ofPieces, Format.ofTemplate, Format.bind, Table.insert,
      Piece.template, placeholder]

/-- The template is the layout with its holes shown by name. -/
theorem template_eq (g : Gadget) : g.template = String.join (g.layout.map Piece.template) := by
  rw [template, format_eq]
  rfl

/-- **Variables are bound in the order in which the template shows their holes.** -/
theorem bindings_eq (g : Gadget) : g.bindings = g.layout.filterMap Piece.binding? := by
  rw [bindings, format_eq]
  rfl

end Gadget

end Attestation
