import Attestation.Proofs.Catalog
import Attestation.Proofs.OptimizerRun
import Attestation.Proofs.Sameness
import Mathlib.Data.List.Perm.Basic

/-!
# Gadgets up to rearrangement

The comparison of gadgets looks at pairs in both orders, and at sets through their sizes and an
inclusion. What it finds is said here without either: gadgets are the same if one becomes the other
field by field (`Gadget.SameFields`) once the sides of an equality or inequality are swapped or the
elements of a set reordered (`Gadget.Rearranges`). On gadgets that meet their contracts the
comparison is an equivalence, and this is the equivalence it is (`Gadget.same_equivalence`).
-/

namespace Attestation

/-- Two fields hold the same quantities. -/
inductive FieldValue.Same : FieldValue → FieldValue → Prop
  | single {v w : Variable} (h : v.identity = w.identity) : Same (.single v) (.single w)
  | absent : Same .absent .absent
  | list {items others : List Variable}
      (h : items.map Variable.identity = others.map Variable.identity) :
      Same (.list items) (.list others)
  | tree {t u : Tree Variable} (h : t.map Variable.identity = u.map Variable.identity) :
      Same (.tree t) (.tree u)

namespace FieldValue.Same

theorem identity_eq {v w : Variable} (h : Same (.single v) (.single w)) :
    v.identity = w.identity := by
  cases h with
  | single h => exact h

theorem list_eq {items others : List Variable} (h : Same (.list items) (.list others)) :
    items.map Variable.identity = others.map Variable.identity := by
  cases h with
  | list h => exact h

theorem tree_eq {t u : Tree Variable} (h : Same (.tree t) (.tree u)) :
    t.map Variable.identity = u.map Variable.identity := by
  cases h with
  | tree h => exact h

end FieldValue.Same

/-- Of a set, the elements in one order are among those in another and as many. -/
theorem Membership.same_of_perm {v : Variable} {set others : List Variable}
    (h : set.Perm others) : Membership.same ⟨v, set⟩ ⟨v, others⟩ = true :=
  same_iff.2 ⟨rfl, h.length_eq, (h.map Variable.identity).subset⟩

namespace Gadget

/-- The gadgets are of one kind and hold the same quantities in every field. -/
structure SameFields (g h : Gadget) : Prop where
  kind_eq : g.kind = h.kind
  fields : List.Forall₂ (fun a b => a.1 = b.1 ∧ a.2.Same b.2) g.fields h.fields

/-- The second gadget is the first with sides swapped or elements reordered. -/
inductive Rearranges : Gadget → Gadget → Prop
  | refl (g : Gadget) : Rearranges g g
  | swapEquality (x y : Variable) : Rearranges (.equality ⟨x, y⟩) (.equality ⟨y, x⟩)
  | swapInequality (x y : Variable) : Rearranges (.inequality ⟨x, y⟩) (.inequality ⟨y, x⟩)
  | reorder (v : Variable) {set others : List Variable} (h : set.Perm others) :
      Rearranges (.membership ⟨v, set⟩) (.membership ⟨v, others⟩)

variable {g h : Gadget}

theorem Rearranges.same (hr : g.Rearranges h) : g.same h = true := by
  cases hr with
  | refl => exact same_refl g
  | swapEquality x y => exact samePair_iff.2 (.inr ⟨rfl, rfl⟩)
  | swapInequality x y => exact samePair_iff.2 (.inr ⟨rfl, rfl⟩)
  | reorder v hperm => exact Membership.same_of_perm hperm

theorem SameFields.same (hs : g.SameFields h) : g.same h = true := by
  obtain ⟨hkind, hfields⟩ := hs
  cases g <;> cases h <;> cases hkind
  case equality.equality.refl a b =>
    obtain _ | ⟨⟨-, hl⟩, _ | ⟨⟨-, hr⟩, _⟩⟩ := hfields
    exact samePair_iff.2 (.inl ⟨hl.identity_eq, hr.identity_eq⟩)
  case inequality.inequality.refl a b =>
    obtain _ | ⟨⟨-, hl⟩, _ | ⟨⟨-, hr⟩, _⟩⟩ := hfields
    exact samePair_iff.2 (.inl ⟨hl.identity_eq, hr.identity_eq⟩)
  case bounds.bounds.refl a b =>
    obtain _ | ⟨⟨-, hv⟩, _ | ⟨⟨-, hlo⟩, _ | ⟨⟨-, hhi⟩, _⟩⟩⟩ := hfields
    simp [Gadget.same, Bounds.same, Variable.same_iff, hv.identity_eq, hlo.identity_eq,
      hhi.identity_eq]
  case membership.membership.refl a b =>
    obtain _ | ⟨⟨-, hm⟩, _ | ⟨⟨-, hset⟩, _⟩⟩ := hfields
    have hlength : a.set.length = b.set.length := by
      simpa using congrArg List.length hset.list_eq
    exact Membership.same_iff.2 ⟨hm.identity_eq, hlength, hset.list_eq ▸ List.Subset.refl _⟩
  case mimcHash.mimcHash.refl a b =>
    obtain _ | ⟨⟨-, hx⟩, _ | ⟨⟨-, hy⟩, _⟩⟩ := hfields
    simp [Gadget.same, MimcHash.same, Variable.same_iff, hx.identity_eq, hy.identity_eq]
  case merkleTree.merkleTree.refl a b =>
    obtain _ | ⟨⟨-, hv⟩, _ | ⟨⟨-, ht⟩, _⟩⟩ := hfields
    simp [Gadget.same, MerkleTree.same, Variable.same_iff, hv.identity_eq, ht.tree_eq]

/-- A gadget that is the same as another can be rearranged to hold what the other holds, field by
field. -/
theorem exists_rearranges_of_same (hs : g.same h = true) (hg : g.check = .ok ()) :
    ∃ k, g.Rearranges k ∧ k.SameFields h := by
  cases g <;> cases h <;> simp only [Gadget.same, Bool.false_eq_true] at hs
  case equality.equality a b =>
    rcases samePair_iff.1 hs with ⟨hl, hr⟩ | ⟨hl, hr⟩
    · exact ⟨_, .refl _, rfl, .cons ⟨rfl, .single hl⟩ (.cons ⟨rfl, .single hr⟩ .nil)⟩
    · exact ⟨_, .swapEquality _ _, rfl, .cons ⟨rfl, .single hr⟩ (.cons ⟨rfl, .single hl⟩ .nil)⟩
  case inequality.inequality a b =>
    rcases samePair_iff.1 hs with ⟨hl, hr⟩ | ⟨hl, hr⟩
    · exact ⟨_, .refl _, rfl, .cons ⟨rfl, .single hl⟩ (.cons ⟨rfl, .single hr⟩ .nil)⟩
    · exact ⟨_, .swapInequality _ _, rfl, .cons ⟨rfl, .single hr⟩ (.cons ⟨rfl, .single hl⟩ .nil)⟩
  case bounds.bounds a b =>
    simp only [Bounds.same, Bool.and_eq_true, Variable.same_iff] at hs
    obtain ⟨⟨hv, hlo⟩, hhi⟩ := hs
    exact ⟨_, .refl _, rfl,
      .cons ⟨rfl, .single hv⟩ (.cons ⟨rfl, .single hlo⟩ (.cons ⟨rfl, .single hhi⟩ .nil))⟩
  case membership.membership a b =>
    -- Distinct elements make the inclusion a permutation of quantities, which is one of variables.
    have hperm := Membership.perm_of_same hs (Membership.check_eq_ok_iff.1 hg)
    have hcomp : Relation.Comp (fun i l => i = List.map Variable.identity l) List.Perm
        (b.set.map Variable.identity) a.set := by
      rw [List.eq_map_comp_perm]
      exact hperm.symm
    obtain ⟨set, hset, hreorder⟩ := hcomp
    have hmember := (Membership.same_iff.1 hs).1
    exact ⟨_, .reorder a.member hreorder.symm, rfl,
      .cons ⟨rfl, .single hmember⟩ (.cons ⟨rfl, .list hset.symm⟩ .nil)⟩
  case mimcHash.mimcHash a b =>
    simp only [MimcHash.same, Bool.and_eq_true, Variable.same_iff] at hs
    exact ⟨_, .refl _, rfl, .cons ⟨rfl, .single hs.1⟩ (.cons ⟨rfl, .single hs.2⟩ .nil)⟩
  case merkleTree.merkleTree a b =>
    simp only [MerkleTree.same, Bool.and_eq_true, Variable.same_iff, beq_iff_eq] at hs
    exact ⟨_, .refl _, rfl, .cons ⟨rfl, .single hs.1⟩ (.cons ⟨rfl, .tree hs.2⟩ .nil)⟩

/-- **Sameness is an equivalence of gadgets that meet their contracts**: that of being of one kind
and holding the same quantities in every field, up to swapping the sides of an equality or
inequality and reordering the elements of a set. -/
theorem same_equivalence :
    Equivalence (fun g h : { g : Gadget // g.check = .ok () } => g.1.same h.1 = true) ∧
      ∀ g h : { g : Gadget // g.check = .ok () },
        g.1.same h.1 = true ↔ ∃ k, g.1.Rearranges k ∧ k.SameFields h.1 := by
  refine ⟨⟨fun g => same_refl g.1, fun {g h} hgh => same_symm hgh g.2,
    fun hgh hhk => same_trans hgh hhk⟩, fun g h => ⟨fun hgh => ?_, ?_⟩⟩
  · exact exists_rearranges_of_same hgh g.2
  · rintro ⟨k, hgk, hkh⟩
    exact same_trans hgk.same hkh.same

-- The contract is needed: a set that repeats an element is contained in one of its size.
example :
    let basel := Variable.constant (.text "Basel")
    let chur := Variable.constant (.text "Chur")
    let repeating := Gadget.membership ⟨basel, [basel, basel]⟩
    let other := Gadget.membership ⟨basel, [basel, chur]⟩
    repeating.same other = true ∧ other.same repeating = false := by
  decide

end Gadget

end Attestation
