import Attestation.Proofs.Contract
import Mathlib.Data.List.Perm.Subperm

/-!
# What gadgets mean

An assignment gives every quantity a value, a known disclosed quantity its own. Gadgets hold under
an assignment or not; what the hash functions do is left open (`Hashing`). The main statement of
this module is that gadgets that are the same hold under the same assignments
(`Gadget.holds_iff_of_same`). For memberships this takes the contract: a set without repetitions
that is contained in one of the same size is all of it.
-/

namespace Attestation

/-- What a quantity can be. -/
inductive Value where
  | integer (value : Int)
  | text (value : String)
  | bytes (data : List UInt8)
  | boolean (value : Bool)
  deriving DecidableEq, Repr

/-- The value of a literal, if it is known. -/
def Literal.value? : Literal → Option Value
  | integer value => some (.integer value)
  | text value => some (.text value)
  | bytes data => some (.bytes data)
  | boolean value => some (.boolean value)
  | sealed _ => none

/-- The literal for a value. -/
def Value.literal : Value → Literal
  | integer value => .integer value
  | text value => .text value
  | bytes data => .bytes data
  | boolean value => .boolean value

theorem Literal.value?_eq_some_iff {l : Literal} {x : Value} :
    l.value? = some x ↔ l = x.literal := by
  cases l <;> cases x <;> simp [value?, Value.literal]

theorem Literal.exists_value?_of_not_sealed {l : Literal} (h : l.isSealed = false) :
    ∃ x, l.value? = some x := by
  cases l <;> simp_all [value?, isSealed]

/-- The hash functions, about which nothing is known. -/
structure Hashing where
  mimc : Value → Value
  /-- Whether a value is the root of a hash tree with given leaves. -/
  merkle : Value → Tree Value → Prop

/-- A value for every quantity. Known disclosed quantities have their own. -/
structure Assignment where
  value : Identity → Value
  value_known : ∀ {l : Literal} {x : Value}, l.value? = some x → value ⟨.disclosed, l⟩ = x

namespace Assignment

variable (σ : Assignment)

/-- The value of a variable. -/
def of (v : Variable) : Value :=
  σ.value v.identity

theorem of_eq_of_identity_eq {v w : Variable} (h : v.identity = w.identity) : σ.of v = σ.of w :=
  congrArg σ.value h

theorem of_eq_of_same {v w : Variable} (h : v.same w = true) : σ.of v = σ.of w :=
  σ.of_eq_of_identity_eq ((Variable.same_iff v w).1 h)

theorem of_eq_of_known {v : Variable} {x : Value} (hd : v.visibility = .disclosed)
    (hx : v.literal.value? = some x) : σ.of v = x := by
  rw [of, Variable.identity, hd]
  exact σ.value_known hx

theorem of_eq_integer {v : Variable} {n : Int} (h : v.integer? = some n) : σ.of v = .integer n := by
  obtain ⟨hd, hl⟩ := Variable.integer?_eq_some_iff.1 h
  exact σ.of_eq_of_known hd (by rw [hl]; rfl)

/-- Different known disclosed variables have different values. -/
theorem of_ne_of_distinctKnown {v w : Variable} (h : distinctKnown v w = true) :
    σ.of v ≠ σ.of w := by
  simp only [distinctKnown, Bool.and_eq_true, Variable.isDisclosed_iff, Bool.not_eq_true',
    decide_eq_true_eq] at h
  obtain ⟨⟨⟨⟨hv, hw⟩, hsv⟩, hsw⟩, hne⟩ := h
  obtain ⟨x, hx⟩ := Literal.exists_value?_of_not_sealed hsv
  obtain ⟨y, hy⟩ := Literal.exists_value?_of_not_sealed hsw
  rw [σ.of_eq_of_known hv hx, σ.of_eq_of_known hw hy]
  rintro rfl
  rw [Literal.value?_eq_some_iff] at hx hy
  exact hne (hx.trans hy.symm)

end Assignment

/-- The value of a quantity, if everyone knows it. -/
def Identity.value? : Identity → Option Value
  | ⟨.disclosed, l⟩ => l.value?
  | ⟨.witness, _⟩ => none

theorem Identity.value?_eq_some_iff {v : Identity} {x : Value} :
    v.value? = some x ↔ v = ⟨.disclosed, x.literal⟩ := by
  obtain ⟨visibility, l⟩ := v
  cases visibility <;> simp [value?, Literal.value?_eq_some_iff]

/-- The assignment that gives all quantities that are not known values of one's own choosing. -/
def Assignment.choosing (f : Identity → Value) : Assignment where
  value v := v.value?.getD (f v)
  value_known h := by simp [Identity.value?, h]

theorem Assignment.choosing_witness (f : Identity → Value) {v : Identity}
    (hv : v.visibility = .witness) : (choosing f).value v = f v := by
  obtain ⟨visibility, l⟩ := v
  cases hv
  rfl

/-! ## Gadgets that hold -/

section

variable (hashing : Hashing) (σ : Assignment)

def Equality.Holds (g : Equality) : Prop :=
  σ.of g.left = σ.of g.right

def Inequality.Holds (g : Inequality) : Prop :=
  σ.of g.left ≠ σ.of g.right

def Bounds.Holds (g : Bounds) : Prop :=
  ∃ n lo hi, σ.of g.value = .integer n ∧ σ.of g.min = .integer lo ∧ σ.of g.max = .integer hi ∧
    lo ≤ n ∧ n ≤ hi

def Membership.Holds (g : Membership) : Prop :=
  ∃ e ∈ g.set, σ.of g.member = σ.of e

def MimcHash.Holds (g : MimcHash) : Prop :=
  σ.of g.image = hashing.mimc (σ.of g.preimage)

def MerkleTree.Holds (g : MerkleTree) : Prop :=
  hashing.merkle (σ.of g.root) (g.tree.map σ.of)

/-- What a gadget asserts is so. -/
def Gadget.Holds : Gadget → Prop
  | equality g => g.Holds σ
  | inequality g => g.Holds σ
  | bounds g => g.Holds σ
  | membership g => g.Holds σ
  | mimcHash g => g.Holds hashing σ
  | merkleTree g => g.Holds hashing σ

/-- All gadgets of a list hold. -/
def Satisfies (gadgets : List Gadget) : Prop :=
  ∀ g ∈ gadgets, g.Holds hashing σ

end

section

variable {hashing : Hashing} {σ : Assignment}

theorem satisfies_append {gs hs : List Gadget} :
    Satisfies hashing σ (gs ++ hs) ↔ Satisfies hashing σ gs ∧ Satisfies hashing σ hs :=
  List.forall_mem_append

theorem satisfies_of_perm {gs hs : List Gadget} (h : gs.Perm hs) :
    Satisfies hashing σ gs ↔ Satisfies hashing σ hs :=
  forall_congr' fun _ => imp_congr_left h.mem_iff

/-- Bounds that are known hold when the value is a number between them. -/
theorem Bounds.holds_iff {g : Bounds} {lo hi : Int} (hlo : g.min.integer? = some lo)
    (hhi : g.max.integer? = some hi) :
    g.Holds σ ↔ ∃ n, σ.of g.value = .integer n ∧ lo ≤ n ∧ n ≤ hi := by
  unfold Bounds.Holds
  rw [σ.of_eq_integer hlo, σ.of_eq_integer hhi]
  constructor
  · rintro ⟨n, lo', hi', hn, hlo', hhi', h⟩
    cases hlo'
    cases hhi'
    exact ⟨n, hn, h⟩
  · rintro ⟨n, hn, h⟩
    exact ⟨n, lo, hi, hn, rfl, rfl, h⟩

end

/-! ## Gadgets that are the same -/

theorem samePair_iff {a b c d : Variable} : samePair a b c d = true ↔
    (a.identity = c.identity ∧ b.identity = d.identity) ∨
      (a.identity = d.identity ∧ b.identity = c.identity) := by
  simp [samePair, Variable.same_iff]

/-- Whether variables are the same whatever a witness is depends on what quantities they are. -/
theorem sameOperand_iff {a b : Variable} : sameOperand a b = true ↔ a.identity = b.identity ∧
    (a.identity.visibility = .disclosed ∨ a.identity.literal.isSealed = true) := by
  simp [sameOperand, Variable.same_iff, Variable.isDisclosed_iff]

/-- A disclosed quantity whose value is known. -/
structure Identity.Known (v : Identity) : Prop where
  disclosed : v.visibility = .disclosed
  unsealed : v.literal.isSealed = false

theorem distinctKnown_iff {a b : Variable} : distinctKnown a b = true ↔
    a.identity.Known ∧ b.identity.Known ∧ a.identity ≠ b.identity := by
  simp only [distinctKnown, Bool.and_eq_true, Variable.isDisclosed_iff, Bool.not_eq_true',
    decide_eq_true_eq]
  constructor
  · rintro ⟨⟨⟨⟨ha, hb⟩, ha'⟩, hb'⟩, hne⟩
    exact ⟨⟨ha, ha'⟩, ⟨hb, hb'⟩, fun heq => hne (congrArg Identity.literal heq)⟩
  · rintro ⟨⟨ha, ha'⟩, ⟨hb, hb'⟩, hne⟩
    refine ⟨⟨⟨⟨ha, hb⟩, ha'⟩, hb'⟩, fun heq => hne ?_⟩
    rw [Variable.identity, Variable.identity, heq, show a.visibility = b.visibility from
      ha.trans hb.symm]

theorem Membership.hasElement_iff {g : Membership} {v : Variable} :
    g.hasElement v = true ↔ v.identity ∈ g.set.map Variable.identity := by
  simp [hasElement, Variable.same_iff]

/-- Memberships that are the same are about the same elements. -/
theorem Membership.perm_of_same {a b : Membership} (h : a.same b = true) (ha : a.Valid) :
    (a.set.map Variable.identity).Perm (b.set.map Variable.identity) := by
  simp only [Membership.same, Bool.and_eq_true, beq_iff_eq, List.all_eq_true] at h
  obtain ⟨⟨-, hlen⟩, hall⟩ := h
  have hsub : a.set.map Variable.identity ⊆ b.set.map Variable.identity := by
    intro i hi
    obtain ⟨e, he, rfl⟩ := List.mem_map.1 hi
    exact Membership.hasElement_iff.1 (hall e he)
  exact (ha.nodup.subperm hsub).perm_of_length_le (by simp [hlen])

theorem Membership.holds_iff_exists_identity {σ : Assignment} {g : Membership} :
    g.Holds σ ↔ ∃ i ∈ g.set.map Variable.identity, σ.of g.member = σ.value i := by
  simp [Membership.Holds, Assignment.of]

theorem Tree.map_of_identity {σ : Assignment} (t : Tree Variable) :
    t.map σ.of = (t.map Variable.identity).map σ.value := by
  induction t with
  | leaf v => rfl
  | branch left right ihl ihr => simp only [Tree.map, ihl, ihr]

/-- **Gadgets that are the same hold under the same assignments**, if the first meets its
contract. -/
theorem Gadget.holds_iff_of_same {hashing : Hashing} {σ : Assignment} {g h : Gadget}
    (hs : g.same h = true) (hg : g.check = .ok ()) : g.Holds hashing σ ↔ h.Holds hashing σ := by
  cases g <;> cases h <;> simp only [Gadget.same, Bool.false_eq_true] at hs
  case equality.equality a b =>
    simp only [Gadget.Holds, Equality.Holds]
    rcases samePair_iff.1 hs with ⟨hl, hr⟩ | ⟨hl, hr⟩
    · rw [σ.of_eq_of_identity_eq hl, σ.of_eq_of_identity_eq hr]
    · rw [σ.of_eq_of_identity_eq hl, σ.of_eq_of_identity_eq hr, eq_comm]
  case inequality.inequality a b =>
    simp only [Gadget.Holds, Inequality.Holds]
    rcases samePair_iff.1 hs with ⟨hl, hr⟩ | ⟨hl, hr⟩
    · rw [σ.of_eq_of_identity_eq hl, σ.of_eq_of_identity_eq hr]
    · rw [σ.of_eq_of_identity_eq hl, σ.of_eq_of_identity_eq hr, ne_comm]
  case bounds.bounds a b =>
    simp only [Bounds.same, Bool.and_eq_true] at hs
    obtain ⟨⟨hv, hmin⟩, hmax⟩ := hs
    simp only [Gadget.Holds, Bounds.Holds]
    rw [σ.of_eq_of_same hv, σ.of_eq_of_same hmin, σ.of_eq_of_same hmax]
  case membership.membership a b =>
    have hperm := Membership.perm_of_same hs (Membership.check_eq_ok_iff.1 hg)
    simp only [Membership.same, Bool.and_eq_true] at hs
    simp only [Gadget.Holds, Membership.holds_iff_exists_identity, hperm.mem_iff,
      σ.of_eq_of_same hs.1.1]
  case mimcHash.mimcHash a b =>
    simp only [MimcHash.same, Bool.and_eq_true] at hs
    simp only [Gadget.Holds, MimcHash.Holds]
    rw [σ.of_eq_of_same hs.1, σ.of_eq_of_same hs.2]
  case merkleTree.merkleTree a b =>
    simp only [MerkleTree.same, Bool.and_eq_true, beq_iff_eq] at hs
    simp only [Gadget.Holds, MerkleTree.Holds]
    rw [σ.of_eq_of_same hs.1, Tree.map_of_identity, hs.2, ← Tree.map_of_identity]

end Attestation
