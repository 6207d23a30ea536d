import Attestation.Gadget.Fields
import Attestation.Rule.Contradiction
import Attestation.Rule.Implication
import Attestation.Rule.Substitution
import Attestation.Proofs.Outcome
import Mathlib.Logic.Function.Basic
import Mathlib.Tactic.SplitIfs

/-!
# Renaming witness values and sources

A renaming puts other values of the same type in the place of witness values, different ones for
different ones, and other numbers in the place of the numbers of sources. Whatever the compiler does
with gadgets should not tell them from renamed ones: it compares witness values and looks at their
types, and shows neither them nor what was found out about them; and it takes positions along
without looking into them. This module proves it of the contracts of gadgets
(`Gadget.check_rename`), of the comparison of gadgets (`Gadget.same_rename`) and of the rules of the
optimizer. What is reported is the same, at the renumbered positions (`Diagnostic.rename`).

One comparison does look at more, whether a value is sealed (`sameOperand`). The two rules that use
it are indifferent only to renamings that are `Steady` for the sides they compare.
-/

namespace Attestation

/-- A replacement of values by others of the same type, different ones for different ones, and of
the numbers of sources. -/
structure Renaming where
  literal : Literal → Literal
  injective : Function.Injective literal
  type_literal : ∀ l, (literal l).type = l.type
  source : Nat → Nat

variable (ρ : Renaming)

/-- The same place in the source with the new number. -/
def Position.rename (p : Position) : Position :=
  ⟨ρ.source p.source, p.span⟩

/-! ## Variables -/

namespace Variable

/-- The variable with another value, if it is a witness. -/
def rename (v : Variable) : Variable where
  visibility := v.visibility
  literal :=
    match v.visibility with
    | .witness => ρ.literal v.literal
    | .disclosed => v.literal
  position := v.position.map (Position.rename ρ)
  reference := v.reference

variable (v w : Variable)

theorem literal_rename_of_disclosed {v : Variable} (h : v.visibility = .disclosed) :
    (v.rename ρ).literal = v.literal := by
  simp [rename, h]

theorem literal_rename_of_witness {v : Variable} (h : v.visibility = .witness) :
    (v.rename ρ).literal = ρ.literal v.literal := by
  simp [rename, h]

@[simp] theorem visibility_rename : (v.rename ρ).visibility = v.visibility := rfl

@[simp] theorem position_rename : (v.rename ρ).position = v.position.map (Position.rename ρ) := rfl

@[simp] theorem reference_rename : (v.rename ρ).reference = v.reference := rfl

@[simp] theorem type_rename : (v.rename ρ).type = v.type := by
  cases h : v.visibility with
  | witness => rw [type, literal_rename_of_witness ρ h, ρ.type_literal, type]
  | disclosed => rw [type, literal_rename_of_disclosed ρ h, type]

@[simp] theorem isWitness_rename : (v.rename ρ).isWitness = v.isWitness := rfl

@[simp] theorem isDisclosed_rename : (v.rename ρ).isDisclosed = v.isDisclosed := rfl

@[simp] theorem integer?_rename : (v.rename ρ).integer? = v.integer? := by
  cases h : v.visibility with
  | witness => simp [integer?, isDisclosed, h]
  | disclosed => rw [integer?, integer?, isDisclosed_rename, literal_rename_of_disclosed ρ h]

/-- What messages show of a variable does not depend on the value of a witness. -/
@[simp] theorem describe_rename : (v.rename ρ).describe = v.describe := by
  cases h : v.visibility with
  | witness => cases hr : v.reference <;> simp [describe, h, hr]
  | disclosed =>
    cases hr : v.reference <;> simp [describe, h, hr, literal_rename_of_disclosed ρ h]

@[simp] theorem same_rename : (v.rename ρ).same (w.rename ρ) = v.same w := by
  cases hv : v.visibility <;> cases hw : w.visibility <;>
    simp [same, identity, rename, hv, hw, ρ.injective.eq_iff]

end Variable

/-! ## Diagnostics -/

namespace Diagnostic

/-- The place in the source with the new number. -/
def Label.rename (label : Label) : Label :=
  { label with position := label.position.map (Position.rename ρ) }

/-- The diagnostic with all it points at in the sources with the new numbers. -/
def rename (d : Diagnostic) : Diagnostic :=
  { d with labels := d.labels.map (Label.rename ρ) }

variable (d : Diagnostic) (kind : Kind) (position : Position) (message : String)

@[simp] theorem unlocated_rename : (unlocated kind message).rename ρ = unlocated kind message := rfl

@[simp] theorem withLabel_rename :
    (d.withLabel position message).rename ρ =
      (d.rename ρ).withLabel (position.rename ρ) message := by
  simp [withLabel, rename, Label.rename]

@[simp] theorem withVariable_rename (v : Variable) :
    (d.withVariable v message).rename ρ = (d.rename ρ).withVariable (v.rename ρ) message := by
  simp [withVariable, rename, Label.rename]

@[simp] theorem internal_rename : (internal message).rename ρ = internal message := rfl

theorem position?_rename : (d.rename ρ).position? = d.position?.map (Position.rename ρ) := by
  simp only [position?, rename, List.findSome?_map, List.map_findSome?]
  rfl

/-- Diagnostics stay as they are if sources keep their numbers. -/
theorem rename_of_source_eq_id (h : ρ.source = id) : rename ρ = id := by
  have hposition : Position.rename ρ = id := by
    funext p
    simp [Position.rename, h]
  have hlabel : Label.rename ρ = id := by
    funext label
    simp [Label.rename, hposition]
  funext d
  simp [rename, hlabel]

end Diagnostic

/-! ## Comparing variables -/

section

variable (a b c d : Variable)

@[simp] theorem samePair_rename :
    samePair (a.rename ρ) (b.rename ρ) (c.rename ρ) (d.rename ρ) = samePair a b c d := by
  simp [samePair]

@[simp] theorem distinctKnown_rename :
    distinctKnown (a.rename ρ) (b.rename ρ) = distinctKnown a b := by
  cases ha : a.visibility <;> cases hb : b.visibility <;>
    simp [distinctKnown, Variable.isDisclosed, Variable.rename, ha, hb]

/-- The renaming does not change whether the variables are the same for a reason that holds
whatever a witness is. -/
def Steady : Prop :=
  sameOperand (a.rename ρ) (b.rename ρ) = sameOperand a b

variable {a b}

/-- A renaming that seals and unseals nothing is steady. -/
theorem steady_of_isSealed (h : ∀ l, (ρ.literal l).isSealed = l.isSealed) : Steady ρ a b := by
  have hsealed : (a.rename ρ).literal.isSealed = a.literal.isSealed := by
    cases ha : a.visibility with
    | witness => rw [Variable.literal_rename_of_witness ρ ha, h]
    | disclosed => rw [Variable.literal_rename_of_disclosed ρ ha]
  simp [Steady, sameOperand, hsealed]

/-- A renaming is steady for variables that are not one witness. -/
theorem steady_of_not_same (h : ¬ (a.visibility = .witness ∧ a.same b = true)) : Steady ρ a b := by
  unfold Steady sameOperand
  rw [Variable.same_rename, Variable.isDisclosed_rename]
  cases hs : a.same b with
  | false => rfl
  | true =>
    cases ha : a.visibility with
    | witness => exact absurd ⟨ha, hs⟩ h
    | disclosed => simp [Variable.isDisclosed, ha]

end

/-! ## Gadgets -/

def Equality.rename (g : Equality) : Equality := ⟨g.left.rename ρ, g.right.rename ρ⟩

def Inequality.rename (g : Inequality) : Inequality := ⟨g.left.rename ρ, g.right.rename ρ⟩

def Bounds.rename (g : Bounds) : Bounds := ⟨g.value.rename ρ, g.min.rename ρ, g.max.rename ρ⟩

def Membership.rename (g : Membership) : Membership :=
  ⟨g.member.rename ρ, g.set.map (Variable.rename ρ)⟩

def MimcHash.rename (g : MimcHash) : MimcHash := ⟨g.preimage.rename ρ, g.image.rename ρ⟩

def MerkleTree.rename (g : MerkleTree) : MerkleTree :=
  ⟨g.root.rename ρ, g.tree.map (Variable.rename ρ)⟩

/-- The gadget with other values for its witnesses. -/
def Gadget.rename : Gadget → Gadget
  | equality g => equality (g.rename ρ)
  | inequality g => inequality (g.rename ρ)
  | bounds g => bounds (g.rename ρ)
  | membership g => membership (g.rename ρ)
  | mimcHash g => mimcHash (g.rename ρ)
  | merkleTree g => merkleTree (g.rename ρ)

/-! ### Contracts -/

section

variable (kind : Syntax.PredicateKind) (field : String) (v w : Variable)

theorem requireDisclosed_rename :
    requireDisclosed kind field (v.rename ρ) =
      mapBoth (.rename ρ) id (requireDisclosed kind field v) := by
  cases h : v.isWitness <;> simp [requireDisclosed, h]

theorem requireWitness_rename :
    requireWitness kind field (v.rename ρ) =
      mapBoth (.rename ρ) id (requireWitness kind field v) := by
  cases h : v.isDisclosed <;> simp [requireWitness, h]

theorem requireType_rename (expected : DataType) :
    requireType kind field (v.rename ρ) expected =
      mapBoth (.rename ρ) id (requireType kind field v expected) := by
  simp only [requireType, Variable.type_rename]
  split_ifs <;> simp

theorem requireSameType_rename :
    requireSameType kind (v.rename ρ) (w.rename ρ) =
      mapBoth (.rename ρ) id (requireSameType kind v w) := by
  simp only [requireSameType, Variable.type_rename]
  split_ifs <;> simp

end

@[simp] theorem Bounds.range?_rename (g : Bounds) : (g.rename ρ).range? = g.range? := by
  simp [range?, rename]

theorem Bounds.empty?_rename (g : Bounds) :
    (g.rename ρ).empty? = g.empty?.map (Diagnostic.rename ρ) := by
  simp only [empty?, range?_rename]
  cases g.range? with
  | none => rfl
  | some range =>
    dsimp only
    split_ifs <;> simp [rename]

theorem Bounds.checkBound_rename (field : String) (v : Variable) :
    checkBound field (v.rename ρ) = mapBoth (.rename ρ) id (checkBound field v) := by
  unfold checkBound
  rw [requireDisclosed_rename, requireType_rename, Variable.integer?_rename]
  refine bind_mapBoth fun _ _ => bind_mapBoth fun _ _ => ?_
  cases v.integer? with
  | none => simp
  | some value =>
    dsimp only
    split_ifs <;> simp

theorem Bounds.check_rename (g : Bounds) :
    (g.rename ρ).check = mapBoth (.rename ρ) id g.check := by
  simp only [check, empty?_rename]
  simp only [rename, requireWitness_rename, requireType_rename, checkBound_rename]
  refine bind_mapBoth fun _ _ => bind_mapBoth fun _ _ => bind_mapBoth fun _ _ =>
    bind_mapBoth fun _ _ => ?_
  cases g.empty? <;> rfl

theorem Membership.checkElements_rename (member : Variable) (before elements : List Variable) :
    checkElements (member.rename ρ) (before.map (Variable.rename ρ))
      (elements.map (Variable.rename ρ)) =
        mapBoth (.rename ρ) id (checkElements member before elements) := by
  induction elements generalizing before with
  | nil => rfl
  | cons e rest ih =>
    have hfind : (before.map (Variable.rename ρ)).find? (·.same (e.rename ρ)) =
        (before.find? (·.same e)).map (Variable.rename ρ) := by
      rw [List.find?_map]
      simp only [Function.comp_def, Variable.same_rename]
    have hrest := ih (before ++ [e])
    rw [List.map_append, List.map_singleton] at hrest
    simp only [List.map_cons, checkElements, List.length_map, requireDisclosed_rename,
      requireSameType_rename, hfind, hrest]
    refine bind_mapBoth fun _ _ => bind_mapBoth fun _ _ => ?_
    cases before.find? (·.same e) <;> simp

theorem MerkleTree.checkLeaves_rename (position : Nat) (leaves : List Variable) :
    checkLeaves position (leaves.map (Variable.rename ρ)) =
      mapBoth (.rename ρ) id (checkLeaves position leaves) := by
  induction leaves generalizing position with
  | nil => rfl
  | cons leaf rest ih =>
    simp only [List.map_cons, checkLeaves, requireType_rename, ih]
    exact bind_mapBoth fun _ _ => rfl

/-- **Contracts do not depend on witness values**, nor do the errors for breaches. -/
theorem Gadget.check_rename (g : Gadget) : (g.rename ρ).check = mapBoth (.rename ρ) id g.check := by
  cases g with
  | equality g => exact requireSameType_rename ρ .equality g.left g.right
  | inequality g => exact requireSameType_rename ρ .inequality g.left g.right
  | bounds g => exact g.check_rename ρ
  | membership g => exact Membership.checkElements_rename ρ g.member [] g.set
  | mimcHash g =>
    simp only [rename, check, MimcHash.check, MimcHash.rename, requireWitness_rename,
      requireDisclosed_rename, requireType_rename]
    exact bind_mapBoth fun _ _ => bind_mapBoth fun _ _ => bind_mapBoth fun _ _ => rfl
  | merkleTree g =>
    simp only [rename, check, MerkleTree.check, MerkleTree.rename, requireDisclosed_rename,
      requireType_rename, Tree.leaves_map, MerkleTree.checkLeaves_rename]
    exact bind_mapBoth fun _ _ => bind_mapBoth fun _ _ => rfl

/-! ### Comparison -/

@[simp] theorem Membership.hasElement_rename (g : Membership) (v : Variable) :
    (g.rename ρ).hasElement (v.rename ρ) = g.hasElement v := by
  simp [hasElement, rename, List.any_map, Function.comp_def]

theorem Membership.same_rename (a b : Membership) : (a.rename ρ).same (b.rename ρ) = a.same b := by
  have hall : ((a.rename ρ).set.all fun e => (b.rename ρ).hasElement e) =
      a.set.all b.hasElement := by
    rw [rename, List.all_map]
    simp [Function.comp_def]
  unfold Membership.same
  rw [hall]
  simp [rename]

theorem map_identity_rename_inj {s t : Tree Variable} :
    (s.map (Variable.rename ρ)).map Variable.identity =
        (t.map (Variable.rename ρ)).map Variable.identity ↔
      s.map Variable.identity = t.map Variable.identity := by
  induction s generalizing t with
  | leaf v =>
    cases t with
    | leaf w =>
      simp only [Tree.map, Tree.leaf.injEq, ← Variable.same_iff, Variable.same_rename]
    | branch l r => simp [Tree.map]
  | branch l r ihl ihr =>
    cases t with
    | leaf w => simp [Tree.map]
    | branch l' r' => simp only [Tree.map, Tree.branch.injEq, ihl, ihr]

theorem MerkleTree.same_rename (a b : MerkleTree) : (a.rename ρ).same (b.rename ρ) = a.same b := by
  rw [Bool.eq_iff_iff]
  simp [MerkleTree.same, rename, map_identity_rename_inj]

/-- **Gadgets are the same exactly when they are after renaming.** -/
@[simp] theorem Gadget.same_rename (g h : Gadget) : (g.rename ρ).same (h.rename ρ) = g.same h := by
  cases g <;> cases h <;> try rfl
  case equality.equality a b => simp [rename, same, Equality.same, Equality.rename]
  case inequality.inequality a b => simp [rename, same, Inequality.same, Inequality.rename]
  case bounds.bounds a b => simp [rename, same, Bounds.same, Bounds.rename]
  case membership.membership a b => exact a.same_rename ρ b
  case mimcHash.mimcHash a b => simp [rename, same, MimcHash.same, MimcHash.rename]
  case merkleTree.merkleTree a b => exact a.same_rename ρ b

/-! ### Construction -/

/-- The argument with other values for its witnesses. -/
def FieldValue.rename : FieldValue → FieldValue
  | single v => single (v.rename ρ)
  | absent => absent
  | list items => list (items.map (Variable.rename ρ))
  | tree t => tree (t.map (Variable.rename ρ))

/-- The arguments with other values for their witnesses. -/
def FieldMap.rename (map : FieldMap) : FieldMap where
  position := map.position.rename ρ
  fields := map.fields.mapValues (FieldValue.rename ρ)

namespace FieldMap

variable (map : FieldMap) (name : String)

theorem find?_rename :
    (map.rename ρ).fields.find? name = (map.fields.find? name).map (FieldValue.rename ρ) :=
  Table.find?_mapValues (FieldValue.rename ρ) map.fields name

theorem get_rename {α : Type} {shape : String} {view : FieldValue → Option α} {φ : α → α}
    (h : ∀ value, view (value.rename ρ) = (view value).map φ) :
    (map.rename ρ).get name shape view = mapBoth (.rename ρ) φ (map.get name shape view) := by
  have hmisfit : ∀ message, (map.rename ρ).misfit message = (map.misfit message).rename ρ :=
    fun _ => rfl
  unfold get
  rw [find?_rename]
  cases map.fields.find? name with
  | none => exact congrArg Except.error (hmisfit _)
  | some value =>
    simp only [Option.map_some, h, hmisfit]
    cases view value <;> rfl

theorem single_rename :
    (map.rename ρ).single name = mapBoth (.rename ρ) (.rename ρ) (map.single name) :=
  map.get_rename ρ name fun value => by cases value <;> rfl

theorem optional_rename :
    (map.rename ρ).optional name =
      mapBoth (.rename ρ) (Option.map (.rename ρ)) (map.optional name) :=
  map.get_rename ρ name fun value => by cases value <;> rfl

theorem list_rename :
    (map.rename ρ).list name = mapBoth (.rename ρ) (List.map (.rename ρ)) (map.list name) :=
  map.get_rename ρ name fun value => by cases value <;> rfl

theorem tree_rename :
    (map.rename ρ).tree name = mapBoth (.rename ρ) (Tree.map (.rename ρ)) (map.tree name) :=
  map.get_rename ρ name fun value => by cases value <;> rfl

end FieldMap

theorem Gadget.ofFields_rename (map : FieldMap) (kind : Syntax.PredicateKind) :
    ofFields (map.rename ρ) kind = mapBoth (.rename ρ) (.rename ρ) (ofFields map kind) := by
  cases kind with
  | equality =>
    simp only [ofFields, FieldMap.single_rename]
    exact bind_mapBoth fun _ _ => bind_mapBoth fun _ _ => rfl
  | inequality =>
    simp only [ofFields, FieldMap.single_rename]
    exact bind_mapBoth fun _ _ => bind_mapBoth fun _ _ => rfl
  | bounds =>
    have hgetD : ∀ (v? : Option Variable) (l : Literal),
        (v?.map (Variable.rename ρ)).getD (.constant l) = (v?.getD (.constant l)).rename ρ := by
      intro v? l
      cases v? <;> rfl
    simp only [ofFields, FieldMap.single_rename, FieldMap.optional_rename]
    refine bind_mapBoth fun value _ => bind_mapBoth fun min _ => bind_mapBoth fun max _ => ?_
    rw [hgetD, hgetD]
    rfl
  | membership =>
    simp only [ofFields, FieldMap.single_rename, FieldMap.list_rename]
    refine bind_mapBoth fun member _ => bind_mapBoth fun set _ => ?_
    rw [List.isEmpty_map]
    split_ifs <;> rfl
  | mimcHash =>
    simp only [ofFields, FieldMap.single_rename]
    exact bind_mapBoth fun _ _ => bind_mapBoth fun _ _ => rfl
  | merkleTree =>
    simp only [ofFields, FieldMap.single_rename, FieldMap.tree_rename]
    exact bind_mapBoth fun _ _ => bind_mapBoth fun _ _ => rfl

/-- **A gadget is built from renamed arguments as it is from the arguments themselves.** -/
theorem Gadget.construct_rename (kind : Syntax.PredicateKind) (map : FieldMap) :
    construct kind (map.rename ρ) = mapBoth (.rename ρ) (.rename ρ) (construct kind map) := by
  unfold construct
  rw [ofFields_rename]
  refine bind_mapBoth fun g _ => ?_
  rw [check_rename]
  exact bind_mapBoth fun _ _ => rfl

/-! ## Rules -/

/-! ### Contradictions -/

theorem Bounds.disjoint?_rename (a b : Bounds) :
    (a.rename ρ).disjoint? (b.rename ρ) = (a.disjoint? b).map (Diagnostic.rename ρ) := by
  have hvalue : (a.rename ρ).value.same (b.rename ρ).value = a.value.same b.value :=
    Variable.same_rename ρ a.value b.value
  simp only [disjoint?, range?_rename, hvalue]
  split_ifs
  · cases a.range? <;> cases b.range? <;> dsimp only [Option.map_none]
    split_ifs <;> simp [rename, disjoint?.apart]
  · rfl

theorem Equality.unequal?_rename (g : Equality) :
    (g.rename ρ).unequal? = g.unequal?.map (Diagnostic.rename ρ) := by
  cases h : distinctKnown g.left g.right <;> simp [unequal?, rename, h]

theorem Inequality.reflexive?_rename {g : Inequality} (h : Steady ρ g.left g.right) :
    (g.rename ρ).reflexive? = g.reflexive?.map (Diagnostic.rename ρ) := by
  unfold Steady at h
  cases hsame : sameOperand g.left g.right <;> simp [reflexive?, rename, h, hsame]

theorem Equality.denied?_rename (e : Equality) (i : Inequality) :
    (e.rename ρ).denied? (i.rename ρ) = (e.denied? i).map (Diagnostic.rename ρ) := by
  cases h : samePair e.left e.right i.left i.right <;>
    simp [denied?, rename, Inequality.rename, h]

theorem Membership.excluded?_rename (g : Membership) :
    (g.rename ρ).excluded? = g.excluded?.map (Diagnostic.rename ρ) := by
  have hmember : (g.rename ρ).member = g.member.rename ρ := rfl
  have hknown : ((g.member.rename ρ).isDisclosed && !(g.member.rename ρ).literal.isSealed) =
      (g.member.isDisclosed && !g.member.literal.isSealed) := by
    cases h : g.member.visibility with
    | witness => simp [Variable.isDisclosed, h]
    | disclosed => rw [Variable.literal_rename_of_disclosed ρ h, Variable.isDisclosed_rename]
  simp only [excluded?, hmember, hasElement_rename, hknown]
  split_ifs <;> simp

theorem MimcHash.ambiguous?_rename (a b : MimcHash) :
    (a.rename ρ).ambiguous? (b.rename ρ) = (a.ambiguous? b).map (Diagnostic.rename ρ) := by
  cases h : a.preimage.same b.preimage && distinctKnown a.image b.image <;>
    simp [ambiguous?, rename, h]

/-! ### Implications -/

theorem Equality.counterpart?_rename (g : Equality) (v : Variable) :
    (g.rename ρ).counterpart? (v.rename ρ) = (g.counterpart? v).map (Variable.rename ρ) := by
  simp only [counterpart?, rename, Variable.same_rename]
  split_ifs <;> rfl

theorem Equality.carry?_rename (e : Equality) (b : Bounds) :
    (e.rename ρ).carry? (b.rename ρ) = (e.carry? b).map (Gadget.rename ρ) := by
  have hvalue : (b.rename ρ).value = b.value.rename ρ := rfl
  simp only [carry?, hvalue, counterpart?_rename]
  cases e.counterpart? b.value with
  | none => rfl
  | some other =>
    simp only [Option.map_some, Option.bind_eq_bind, Option.bind_some, Variable.isWitness_rename,
      Variable.same_rename]
    split_ifs <;> rfl

theorem Equality.outer?_rename (a b : Equality) :
    (a.rename ρ).outer? (b.rename ρ) =
      (a.outer? b).map fun (x, y) => (x.rename ρ, y.rename ρ) := by
  have hleft : (a.rename ρ).left = a.left.rename ρ := rfl
  have hright : (a.rename ρ).right = a.right.rename ρ := rfl
  simp only [outer?, hleft, hright, counterpart?_rename]
  cases b.counterpart? a.left with
  | some other => rfl
  | none => simp [Option.map_map, Function.comp_def]

theorem Equality.chain?_rename (a b : Equality) :
    (a.rename ρ).chain? (b.rename ρ) = (a.chain? b).map (Gadget.rename ρ) := by
  simp only [chain?, outer?_rename]
  cases a.outer? b with
  | none => rfl
  | some sides =>
    simp only [Option.map_some, Option.bind_eq_bind, Option.bind_some, Variable.same_rename]
    split_ifs <;> rfl

/-! ### Substitutions -/

theorem Bounds.point?_rename (g : Bounds) :
    (g.rename ρ).point? = g.point?.map (List.map (Gadget.rename ρ)) := by
  simp only [point?, range?_rename]
  cases g.range? with
  | none => rfl
  | some range =>
    simp only [Option.bind_eq_bind, Option.bind_some]
    split_ifs <;> rfl

theorem Bounds.touch?_rename (a b : Bounds) :
    (a.rename ρ).touch? (b.rename ρ) = (a.touch? b).map (List.map (Gadget.rename ρ)) := by
  have hvalue : (a.rename ρ).value.same (b.rename ρ).value = a.value.same b.value :=
    Variable.same_rename ρ a.value b.value
  simp only [touch?, range?_rename, hvalue]
  split_ifs with hsame
  · cases a.range? <;> cases b.range? <;>
      simp only [Option.bind_eq_bind, Option.bind_some, Option.bind_none, Option.map_none]
    split_ifs <;> rfl
  · rfl

theorem Bounds.intersect?_rename (a b : Bounds) :
    (a.rename ρ).intersect? (b.rename ρ) = (a.intersect? b).map (List.map (Gadget.rename ρ)) := by
  have hvalue : (a.rename ρ).value.same (b.rename ρ).value = a.value.same b.value :=
    Variable.same_rename ρ a.value b.value
  simp only [intersect?, range?_rename, hvalue]
  split_ifs with hsame
  · cases a.range? <;> cases b.range? <;>
      simp only [Option.bind_eq_bind, Option.bind_some, Option.bind_none, Option.map_none]
    split_ifs <;> rfl
  · rfl

theorem Equality.trivial?_rename {g : Equality} (h : Steady ρ g.left g.right) :
    (g.rename ρ).trivial? = g.trivial?.map (List.map (Gadget.rename ρ)) := by
  unfold Steady at h
  simp only [trivial?, rename, h]
  split_ifs <;> rfl

theorem Inequality.trivial?_rename (g : Inequality) :
    (g.rename ρ).trivial? = g.trivial?.map (List.map (Gadget.rename ρ)) := by
  simp only [trivial?, rename, distinctKnown_rename]
  split_ifs <;> rfl

theorem Membership.single?_rename (g : Membership) :
    (g.rename ρ).single? = g.single?.map (List.map (Gadget.rename ρ)) := by
  obtain ⟨member, set⟩ := g
  rcases set with _ | ⟨only, _ | ⟨second, rest⟩⟩ <;> rfl

end Attestation
