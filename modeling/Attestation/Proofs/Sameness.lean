import Attestation.Proofs.Assignment

/-!
# Gadgets that are the same

Gadgets are compared side by side, and sets element by element. On gadgets that meet their contracts
the comparison goes either way (`Gadget.same_symm`) and it can be chained (`Gadget.same_trans`). The
contract matters for sets alone: one that is contained in another of the same size is all of it only
if it repeats nothing.
-/

namespace Attestation

theorem samePair_symm {a b c d : Variable} (h : samePair a b c d = true) :
    samePair c d a b = true := by
  rw [samePair_iff] at h ⊢
  rcases h with ⟨hac, hbd⟩ | ⟨had, hbc⟩
  · exact .inl ⟨hac.symm, hbd.symm⟩
  · exact .inr ⟨hbc.symm, had.symm⟩

theorem samePair_trans {a b c d x y : Variable} (h : samePair a b c d = true)
    (h' : samePair c d x y = true) : samePair a b x y = true := by
  rw [samePair_iff] at h h' ⊢
  rcases h with ⟨hac, hbd⟩ | ⟨had, hbc⟩ <;> rcases h' with ⟨hcx, hdy⟩ | ⟨hcy, hdx⟩
  · exact .inl ⟨hac.trans hcx, hbd.trans hdy⟩
  · exact .inr ⟨hac.trans hcy, hbd.trans hdx⟩
  · exact .inr ⟨had.trans hdy, hbc.trans hcx⟩
  · exact .inl ⟨had.trans hdx, hbc.trans hcy⟩

/-- Whether sides are the same whatever a witness is does not depend on their order. -/
theorem sameOperand_eq_of_samePair {a b c d : Variable} (h : samePair a b c d = true) :
    sameOperand a b = sameOperand c d := by
  rw [Bool.eq_iff_iff, sameOperand_iff, sameOperand_iff]
  rcases samePair_iff.1 h with ⟨hac, hbd⟩ | ⟨had, hbc⟩
  · rw [hac, hbd]
  · rw [had, hbc, eq_comm]
    exact and_congr_right fun heq => by rw [heq]

theorem distinctKnown_comm (a b : Variable) : distinctKnown a b = distinctKnown b a := by
  rw [Bool.eq_iff_iff, distinctKnown_iff, distinctKnown_iff, ne_comm]
  exact and_left_comm

theorem distinctKnown_congr {a b c d : Variable} (hac : a.identity = c.identity)
    (hbd : b.identity = d.identity) : distinctKnown a b = distinctKnown c d := by
  rw [Bool.eq_iff_iff, distinctKnown_iff, distinctKnown_iff, hac, hbd]

theorem distinctKnown_eq_of_samePair {a b c d : Variable} (h : samePair a b c d = true) :
    distinctKnown a b = distinctKnown c d := by
  rcases samePair_iff.1 h with ⟨hac, hbd⟩ | ⟨had, hbc⟩
  · exact distinctKnown_congr hac hbd
  · rw [distinctKnown_comm a b]
    exact distinctKnown_congr hbc had

namespace Membership

variable {a b c : Membership}

theorem same_iff : a.same b = true ↔ a.member.identity = b.member.identity ∧
    a.set.length = b.set.length ∧
    a.set.map Variable.identity ⊆ b.set.map Variable.identity := by
  simp only [Membership.same, Bool.and_eq_true, Variable.same_iff, beq_iff_eq, List.all_eq_true,
    hasElement_iff, and_assoc]
  refine and_congr_right fun _ => and_congr_right fun _ => ?_
  exact List.forall_mem_map.symm

theorem same_symm (h : a.same b = true) (ha : a.Valid) : b.same a = true := by
  have hperm := perm_of_same h ha
  obtain ⟨hmember, hlength, -⟩ := same_iff.1 h
  exact same_iff.2 ⟨hmember.symm, hlength.symm, hperm.symm.subset⟩

theorem same_trans (h : a.same b = true) (h' : b.same c = true) : a.same c = true := by
  obtain ⟨hmember, hlength, hsub⟩ := same_iff.1 h
  obtain ⟨hmember', hlength', hsub'⟩ := same_iff.1 h'
  exact same_iff.2 ⟨hmember.trans hmember', hlength.trans hlength', List.Subset.trans hsub hsub'⟩

end Membership

namespace Gadget

variable {g h k : Gadget}

theorem same_symm (hgh : g.same h = true) (hg : g.check = .ok ()) : h.same g = true := by
  cases g <;> cases h <;> simp only [Gadget.same, Bool.false_eq_true] at hgh
  case equality.equality a b => exact samePair_symm hgh
  case inequality.inequality a b => exact samePair_symm hgh
  case bounds.bounds a b =>
    simp only [Gadget.same, Bounds.same, Bool.and_eq_true, Variable.same_iff] at hgh ⊢
    exact ⟨⟨hgh.1.1.symm, hgh.1.2.symm⟩, hgh.2.symm⟩
  case membership.membership a b =>
    exact Membership.same_symm hgh (Membership.check_eq_ok_iff.1 hg)
  case mimcHash.mimcHash a b =>
    simp only [Gadget.same, MimcHash.same, Bool.and_eq_true, Variable.same_iff] at hgh ⊢
    exact ⟨hgh.1.symm, hgh.2.symm⟩
  case merkleTree.merkleTree a b =>
    simp only [Gadget.same, MerkleTree.same, Bool.and_eq_true, Variable.same_iff,
      beq_iff_eq] at hgh ⊢
    exact ⟨hgh.1.symm, hgh.2.symm⟩

theorem same_trans (hgh : g.same h = true) (hhk : h.same k = true) : g.same k = true := by
  cases g <;> cases h <;> simp only [Gadget.same, Bool.false_eq_true] at hgh <;>
    cases k <;> simp only [Gadget.same, Bool.false_eq_true] at hhk
  case equality.equality.equality a b c => exact samePair_trans hgh hhk
  case inequality.inequality.inequality a b c => exact samePair_trans hgh hhk
  case bounds.bounds.bounds a b c =>
    simp only [Gadget.same, Bounds.same, Bool.and_eq_true, Variable.same_iff] at hgh hhk ⊢
    exact ⟨⟨hgh.1.1.trans hhk.1.1, hgh.1.2.trans hhk.1.2⟩, hgh.2.trans hhk.2⟩
  case membership.membership.membership a b c => exact Membership.same_trans hgh hhk
  case mimcHash.mimcHash.mimcHash a b c =>
    simp only [Gadget.same, MimcHash.same, Bool.and_eq_true, Variable.same_iff] at hgh hhk ⊢
    exact ⟨hgh.1.trans hhk.1, hgh.2.trans hhk.2⟩
  case merkleTree.merkleTree.merkleTree a b c =>
    simp only [Gadget.same, MerkleTree.same, Bool.and_eq_true, Variable.same_iff,
      beq_iff_eq] at hgh hhk ⊢
    exact ⟨hgh.1.trans hhk.1, hgh.2.trans hhk.2⟩

end Gadget

end Attestation
