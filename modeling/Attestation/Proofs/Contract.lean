import Attestation.Gadget.Check
import Attestation.Proofs.Outcome

/-!
# The contract of a gadget, declaratively

`Gadget.check` goes through a gadget and stops at the first breach of its contract. Here the
contracts are said at once (`Gadget.Valid`, `Gadget.check_eq_ok_iff`):

* the sides of an equality or inequality are of one type (`Equality.check_eq_ok_iff`,
  `Inequality.check_eq_ok_iff`);
* bounds are a non-empty range of known numbers around a witness integer (`Bounds.Valid`,
  `Bounds.check_eq_ok_iff`);
* the elements of a set are disclosed, of the type of the member and pairwise different quantities
  (`Membership.Valid`, `Membership.check_eq_ok_iff`);
* a hash discloses the bytes of its image and nothing of its preimage, a witness integer
  (`MimcHash.Valid`, `MimcHash.check_eq_ok_iff`);
* the root of a tree is disclosed, and root and leaves are bytes (`MerkleTree.Valid`,
  `MerkleTree.check_eq_ok_iff`).
-/

namespace Attestation

open Syntax (PredicateKind)

/-! ## Single variables -/

theorem Variable.integer?_eq_some_iff {v : Variable} {n : Int} :
    v.integer? = some n ↔ v.visibility = .disclosed ∧ v.literal = .integer n := by
  unfold Variable.integer? Variable.isDisclosed
  cases hv : v.visibility with
  | witness => simp
  | disclosed => cases hl : v.literal <;> simp [Literal.integer?]

theorem Variable.type_eq_of_identity_eq {v w : Variable} (h : v.identity = w.identity) :
    v.type = w.type :=
  congrArg (fun i => i.literal.type) h

theorem Variable.type_eq_of_integer? {v : Variable} {n : Int} (h : v.integer? = some n) :
    v.type = .integer := by
  rw [Variable.type, (Variable.integer?_eq_some_iff.1 h).2]
  rfl

section

variable {kind : PredicateKind} {field : String} {v : Variable}

theorem requireDisclosed_eq_ok_iff :
    requireDisclosed kind field v = .ok () ↔ v.visibility = .disclosed := by
  unfold requireDisclosed Variable.isWitness
  cases hv : v.visibility <;> simp

theorem requireWitness_eq_ok_iff :
    requireWitness kind field v = .ok () ↔ v.visibility = .witness := by
  unfold requireWitness Variable.isDisclosed
  cases hv : v.visibility <;> simp

theorem requireType_eq_ok_iff {expected : DataType} :
    requireType kind field v expected = .ok () ↔ v.type = expected := by
  unfold requireType
  by_cases hv : v.type = expected <;> simp [hv]

theorem requireSameType_eq_ok_iff {left right : Variable} :
    requireSameType kind left right = .ok () ↔ left.type = right.type := by
  unfold requireSameType
  by_cases hv : left.type = right.type <;> simp [hv]

end

theorem Equality.check_eq_ok_iff {g : Equality} : g.check = .ok () ↔ g.left.type = g.right.type :=
  requireSameType_eq_ok_iff

theorem Inequality.check_eq_ok_iff {g : Inequality} :
    g.check = .ok () ↔ g.left.type = g.right.type :=
  requireSameType_eq_ok_iff

/-! ## Bounds -/

namespace Bounds

/-- The contract of bounds: a witness integer and a range that is not empty. -/
structure Valid (g : Bounds) : Prop where
  witness : g.value.visibility = .witness
  integer : g.value.type = .integer
  range : ∃ lo hi, g.min.integer? = some lo ∧ g.max.integer? = some hi ∧
    least ≤ lo ∧ lo ≤ hi ∧ hi ≤ greatest

theorem Valid.le {g : Bounds} (h : g.Valid) {lo hi : Int} (hlo : g.min.integer? = some lo)
    (hhi : g.max.integer? = some hi) : lo ≤ hi := by
  obtain ⟨lo', hi', hlo', hhi', -, hle, -⟩ := h.range
  rw [hlo] at hlo'
  rw [hhi] at hhi'
  cases hlo'
  cases hhi'
  exact hle

/-- The numbers with too many digits are those beyond the greatest bound. -/
theorem maxBits_lt_bits_iff {n : Int} (hn : least ≤ n) : maxBits < bits n ↔ greatest < n := by
  have hcast : ((n.natAbs : Nat) : Int) = n := Int.natAbs_of_nonneg hn
  have hgreatest : greatest = ((2 ^ maxBits : Nat) : Int) - 1 := rfl
  unfold bits
  split_ifs with hzero
  · have hpos : 0 < 2 ^ maxBits := Nat.two_pow_pos maxBits
    omega
  · have hne : n.natAbs ≠ 0 := Int.natAbs_ne_zero.2 hzero
    rw [Nat.lt_succ_iff, Nat.le_log2 hne]
    omega

theorem checkBound_eq_ok_iff {field : String} {bound : Variable} :
    checkBound field bound = .ok () ↔
      ∃ n, bound.integer? = some n ∧ least ≤ n ∧ n ≤ greatest := by
  unfold checkBound
  rw [seq_eq_ok_iff, seq_eq_ok_iff, requireDisclosed_eq_ok_iff, requireType_eq_ok_iff]
  cases hn : bound.integer? with
  | none => simp
  | some n =>
    have hd := (Variable.integer?_eq_some_iff.1 hn).1
    have ht := Variable.type_eq_of_integer? hn
    simp only [hd, ht, true_and, Option.some.injEq, exists_eq_left']
    split_ifs with h₁ h₂
    · simp only [false_iff]; omega
    · have := (maxBits_lt_bits_iff (Int.not_lt.1 h₁)).1 h₂
      simp only [false_iff]; omega
    · have := mt (maxBits_lt_bits_iff (Int.not_lt.1 h₁)).2 h₂
      simp only [true_iff]; omega

theorem range?_eq_some_iff {g : Bounds} {lo hi : Int} :
    g.range? = some (lo, hi) ↔ g.min.integer? = some lo ∧ g.max.integer? = some hi := by
  unfold range?
  cases g.min.integer? <;> cases g.max.integer? <;> simp

theorem Valid.empty?_eq_none {b : Bounds} (h : b.Valid) : b.empty? = none := by
  obtain ⟨lo, hi, hlo, hhi, -, hle, -⟩ := h.range
  simp only [Bounds.empty?, Bounds.range?_eq_some_iff.2 ⟨hlo, hhi⟩]
  exact if_neg (by omega)

theorem check_eq_ok_iff {g : Bounds} : g.check = .ok () ↔ g.Valid := by
  unfold check
  rw [seq_eq_ok_iff, seq_eq_ok_iff, seq_eq_ok_iff, seq_eq_ok_iff, requireWitness_eq_ok_iff,
    requireType_eq_ok_iff, checkBound_eq_ok_iff, checkBound_eq_ok_iff]
  constructor
  · rintro ⟨hw, ht, ⟨lo, hlo, hlo₀, -⟩, ⟨hi, hhi, -, hhi₁⟩, h⟩
    refine ⟨hw, ht, lo, hi, hlo, hhi, hlo₀, ?_, hhi₁⟩
    by_contra hle
    have hlt : hi < lo := by omega
    rw [empty?, range?_eq_some_iff.2 ⟨hlo, hhi⟩] at h
    simp [hlt] at h
  · rintro ⟨hw, ht, lo, hi, hlo, hhi, hlo₀, hle, hhi₁⟩
    refine ⟨hw, ht, ⟨lo, hlo, hlo₀, by omega⟩, ⟨hi, hhi, by omega, hhi₁⟩, ?_⟩
    have hlt : ¬ hi < lo := by omega
    rw [empty?, range?_eq_some_iff.2 ⟨hlo, hhi⟩]
    simp [hlt]

end Bounds

/-! ## Memberships -/

namespace Membership

/-- The contract of a membership. -/
structure Valid (g : Membership) : Prop where
  disclosed : ∀ e ∈ g.set, e.visibility = .disclosed
  type_eq : ∀ e ∈ g.set, g.member.type = e.type
  nodup : (g.set.map Variable.identity).Nodup

theorem checkElements_eq_ok_iff {member : Variable} {before rest : List Variable} :
    checkElements member before rest = .ok () ↔
      (∀ e ∈ rest, e.visibility = .disclosed) ∧ (∀ e ∈ rest, member.type = e.type) ∧
        (∀ e ∈ rest, ∀ b ∈ before, b.identity ≠ e.identity) ∧
        (rest.map Variable.identity).Nodup := by
  induction rest generalizing before with
  | nil => simp [checkElements]
  | cons element rest ih =>
    rw [checkElements, seq_eq_ok_iff, seq_eq_ok_iff, requireDisclosed_eq_ok_iff,
      requireSameType_eq_ok_iff]
    cases hf : before.find? (·.same element) with
    | some first =>
      have hsame := List.find?_some hf
      have hmem := List.mem_of_find?_eq_some hf
      rw [Variable.same_iff] at hsame
      simp only [reduceCtorEq, and_false, false_iff]
      rintro ⟨-, -, h, -⟩
      exact h element List.mem_cons_self first hmem hsame
    | none =>
      have hnew : ∀ b ∈ before, b.identity ≠ element.identity := by
        intro b hb h
        exact (List.find?_eq_none.1 hf b hb) ((Variable.same_iff b element).2 h)
      simp only [ih, List.forall_mem_cons, List.mem_append, List.mem_singleton, List.map_cons,
        List.nodup_cons, List.mem_map, not_exists, not_and]
      constructor
      · rintro ⟨h₁, h₂, h₃, h₄, h₅, h₆⟩
        exact ⟨⟨h₁, h₃⟩, ⟨h₂, h₄⟩, ⟨hnew, fun e he b hb => h₅ e he b (.inl hb)⟩,
          fun e he h => h₅ e he element (.inr rfl) h.symm, h₆⟩
      · rintro ⟨⟨h₁, h₃⟩, ⟨h₂, h₄⟩, ⟨-, h₅⟩, h₇, h₆⟩
        refine ⟨h₁, h₂, h₃, h₄, ?_, h₆⟩
        rintro e he b (hb | rfl)
        · exact h₅ e he b hb
        · exact fun h => h₇ e he h.symm

theorem check_eq_ok_iff {g : Membership} : g.check = .ok () ↔ g.Valid := by
  rw [check, checkElements_eq_ok_iff]
  constructor
  · rintro ⟨h₁, h₂, -, h₃⟩
    exact ⟨h₁, h₂, h₃⟩
  · rintro ⟨h₁, h₂, h₃⟩
    exact ⟨h₁, h₂, by simp, h₃⟩

end Membership

/-! ## Hashes -/

/-- The contract of a hash. -/
structure MimcHash.Valid (g : MimcHash) : Prop where
  witness : g.preimage.visibility = .witness
  integer : g.preimage.type = .integer
  disclosed : g.image.visibility = .disclosed
  bytes : g.image.type = .bytes

theorem MimcHash.check_eq_ok_iff {g : MimcHash} : g.check = .ok () ↔ g.Valid := by
  unfold MimcHash.check
  rw [seq_eq_ok_iff, seq_eq_ok_iff, seq_eq_ok_iff, requireWitness_eq_ok_iff, requireType_eq_ok_iff,
    requireDisclosed_eq_ok_iff, requireType_eq_ok_iff]
  exact ⟨fun ⟨hw, hi, hd, hb⟩ => ⟨hw, hi, hd, hb⟩, fun ⟨hw, hi, hd, hb⟩ => ⟨hw, hi, hd, hb⟩⟩

namespace MerkleTree

/-- The contract of a hash tree. -/
structure Valid (g : MerkleTree) : Prop where
  disclosed : g.root.visibility = .disclosed
  bytes : g.root.type = .bytes
  leaves : ∀ leaf ∈ g.tree.leaves, leaf.type = .bytes

theorem checkLeaves_eq_ok_iff {position : Nat} {leaves : List Variable} :
    checkLeaves position leaves = .ok () ↔ ∀ leaf ∈ leaves, leaf.type = .bytes := by
  induction leaves generalizing position with
  | nil => simp [checkLeaves]
  | cons leaf rest ih =>
    rw [checkLeaves, seq_eq_ok_iff, requireType_eq_ok_iff, ih, List.forall_mem_cons]

theorem check_eq_ok_iff {g : MerkleTree} : g.check = .ok () ↔ g.Valid := by
  unfold check
  rw [seq_eq_ok_iff, seq_eq_ok_iff, requireDisclosed_eq_ok_iff, requireType_eq_ok_iff,
    checkLeaves_eq_ok_iff]
  exact ⟨fun ⟨hd, hb, hl⟩ => ⟨hd, hb, hl⟩, fun ⟨hd, hb, hl⟩ => ⟨hd, hb, hl⟩⟩

end MerkleTree

/-! ## All kinds -/

/-- The contract of a gadget. -/
def Gadget.Valid : Gadget → Prop
  | .equality g => g.left.type = g.right.type
  | .inequality g => g.left.type = g.right.type
  | .bounds g => g.Valid
  | .membership g => g.Valid
  | .mimcHash g => g.Valid
  | .merkleTree g => g.Valid

theorem Gadget.check_eq_ok_iff {g : Gadget} : g.check = .ok () ↔ g.Valid := by
  cases g with
  | equality g => exact Equality.check_eq_ok_iff
  | inequality g => exact Inequality.check_eq_ok_iff
  | bounds g => exact Bounds.check_eq_ok_iff
  | membership g => exact Membership.check_eq_ok_iff
  | mimcHash g => exact MimcHash.check_eq_ok_iff
  | merkleTree g => exact MerkleTree.check_eq_ok_iff

end Attestation
