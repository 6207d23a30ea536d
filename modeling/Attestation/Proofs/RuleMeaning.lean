import Attestation.Proofs.Assignment
import Attestation.Proofs.RuleResult

/-!
# Rules keep the meaning of gadgets

One statement for each rule, put together by kind:

* gadgets in which a contradiction is found hold together under no assignment
  (`Contradiction.Finds.not_satisfies`);
* what gadgets imply holds wherever they hold (`Implication.Draws.holds`);
* what replaces gadgets holds exactly where they hold (`Substitution.Makes.satisfies_iff`).

Two of the rules need more than the gadgets say. That ranges meeting at an end share just this end
takes ranges that are not empty (`Bounds.holds_iff_of_touch?`); that a known value is none of the
elements takes elements that are known (`Membership.not_holds_of_excluded?`). Both are what
`Gadget.Admissible` provides.
-/

namespace Attestation

/-- A gadget that meets its contract and knows all its disclosed variables. -/
structure Gadget.Admissible (g : Gadget) : Prop where
  check : g.check = .ok ()
  known : ∀ v ∈ g.vars, v.visibility = .disclosed → v.literal.isSealed = false

variable {hashing : Hashing} {σ : Assignment}

theorem satisfies_singleton {g : Gadget} : Satisfies hashing σ [g] ↔ g.Holds hashing σ := by
  simp [Satisfies]

theorem satisfies_pair {g h : Gadget} :
    Satisfies hashing σ [g, h] ↔ g.Holds hashing σ ∧ h.Holds hashing σ := by
  simp [Satisfies]

/-! ## Contradictions -/

theorem Bounds.not_holds_of_empty? {g : Bounds} {error : Diagnostic} (h : g.empty? = some error) :
    ¬ g.Holds σ := by
  unfold Bounds.empty? at h
  split at h
  case h_1 lo hi hr =>
    obtain ⟨hlo, hhi⟩ := range?_eq_some_iff.1 hr
    rw [holds_iff hlo hhi]
    rintro ⟨n, -, h₁, h₂⟩
    rw [if_neg (by omega)] at h
    cases h
  case h_2 => cases h

theorem Bounds.Meet.holds_iff {a b : Bounds} {aMin aMax bMin bMax : Int}
    (h : a.Meet b aMin aMax bMin bMax) : a.Holds σ ∧ b.Holds σ ↔
      ∃ n, σ.of a.value = .integer n ∧ aMin ≤ n ∧ n ≤ aMax ∧ bMin ≤ n ∧ n ≤ bMax := by
  rw [Bounds.holds_iff h.aMin h.aMax, Bounds.holds_iff h.bMin h.bMax,
    ← σ.of_eq_of_identity_eq h.value]
  constructor
  · rintro ⟨⟨n, hn, h₁, h₂⟩, k, hk, h₃, h₄⟩
    rw [hn] at hk
    cases hk
    exact ⟨n, hn, h₁, h₂, h₃, h₄⟩
  · rintro ⟨n, hn, h₁, h₂, h₃, h₄⟩
    exact ⟨⟨n, hn, h₁, h₂⟩, n, hn, h₃, h₄⟩

theorem Bounds.not_holds_of_disjoint? {a b : Bounds} {error : Diagnostic}
    (h : a.disjoint? b = some error) : ¬ (a.Holds σ ∧ b.Holds σ) := by
  obtain ⟨aMin, aMax, bMin, bMax, hmeet, hapart⟩ := exists_disjoint?_iff.1 ⟨error, h⟩
  rw [hmeet.holds_iff]
  rintro ⟨n, -, h₁, h₂, h₃, h₄⟩
  omega

theorem Equality.not_holds_of_unequal? {g : Equality} {error : Diagnostic}
    (h : g.unequal? = some error) : ¬ g.Holds σ := by
  exact σ.of_ne_of_distinctKnown (exists_unequal?_iff.1 ⟨_, h⟩)

theorem of_eq_of_sameOperand {a b : Variable} (h : sameOperand a b = true) : σ.of a = σ.of b := by
  simp only [sameOperand, Bool.and_eq_true] at h
  exact σ.of_eq_of_same h.1

theorem Inequality.not_holds_of_reflexive? {g : Inequality} {error : Diagnostic}
    (h : g.reflexive? = some error) : ¬ g.Holds σ := by
  exact not_not.2 (of_eq_of_sameOperand (exists_reflexive?_iff.1 ⟨_, h⟩))

theorem Equality.not_holds_of_denied? {e : Equality} {i : Inequality} {error : Diagnostic}
    (h : e.denied? i = some error) : ¬ (e.Holds σ ∧ i.Holds σ) := by
  have hs := exists_denied?_iff.1 ⟨_, h⟩
  rintro ⟨he, hi⟩
  unfold Equality.Holds at he
  unfold Inequality.Holds at hi
  rcases samePair_iff.1 hs with ⟨hl, hr⟩ | ⟨hl, hr⟩
  · rw [σ.of_eq_of_identity_eq hl, σ.of_eq_of_identity_eq hr] at he
    exact hi he
  · rw [σ.of_eq_of_identity_eq hl, σ.of_eq_of_identity_eq hr] at he
    exact hi he.symm

theorem Membership.not_holds_of_excluded? {g : Membership} {error : Diagnostic}
    (h : g.excluded? = some error) (hg : (Gadget.membership g).Admissible) : ¬ g.Holds σ := by
  obtain ⟨hd, hsealed, hnot⟩ := exists_excluded?_iff.1 ⟨_, h⟩
  rintro ⟨e, he, hσ⟩
  have hed := (Membership.check_eq_ok_iff.1 hg.check).disclosed e he
  have hes := hg.known e (List.mem_cons_of_mem _ he) hed
  obtain ⟨x, hx⟩ := Literal.exists_value?_of_not_sealed hsealed
  obtain ⟨y, hy⟩ := Literal.exists_value?_of_not_sealed hes
  -- both sides are known, so equal values are the same quantity
  rw [σ.of_eq_of_known hd hx, σ.of_eq_of_known hed hy] at hσ
  subst hσ
  rw [Literal.value?_eq_some_iff] at hx hy
  have hsame : e.identity = g.member.identity := by
    rw [Variable.identity, Variable.identity, hed, hd, hx, hy]
  have hmem : g.hasElement g.member = true :=
    Membership.hasElement_iff.2 (hsame ▸ List.mem_map_of_mem he)
  rw [hnot] at hmem
  cases hmem

theorem MimcHash.not_holds_of_ambiguous? {a b : MimcHash} {error : Diagnostic}
    (h : a.ambiguous? b = some error) : ¬ (a.Holds hashing σ ∧ b.Holds hashing σ) := by
  obtain ⟨hpreimage, hdistinct⟩ := exists_ambiguous?_iff.1 ⟨_, h⟩
  rintro ⟨ha, hb⟩
  unfold MimcHash.Holds at ha hb
  refine σ.of_ne_of_distinctKnown hdistinct ?_
  rw [ha, hb, σ.of_eq_of_identity_eq hpreimage]

/-- **Contradictions are real**: gadgets in which one is found hold together under no
assignment. -/
theorem Contradiction.Finds.not_satisfies {matched : List Gadget} {error : Diagnostic}
    (h : Finds matched error) (hm : ∀ g ∈ matched, g.Admissible) :
    ¬ Satisfies hashing σ matched := by
  cases h with
  | empty h =>
    rw [satisfies_singleton]
    exact Bounds.not_holds_of_empty? h
  | disjoint hperm h =>
    rw [satisfies_of_perm hperm, satisfies_pair]
    exact Bounds.not_holds_of_disjoint? h
  | unequal h =>
    rw [satisfies_singleton]
    exact Equality.not_holds_of_unequal? h
  | reflexive h =>
    rw [satisfies_singleton]
    exact Inequality.not_holds_of_reflexive? h
  | denied hperm h =>
    rw [satisfies_of_perm hperm, satisfies_pair]
    exact Equality.not_holds_of_denied? h
  | excluded h =>
    rw [satisfies_singleton]
    exact Membership.not_holds_of_excluded? h (hm _ List.mem_cons_self)
  | ambiguous hperm h =>
    rw [satisfies_of_perm hperm, satisfies_pair]
    exact MimcHash.not_holds_of_ambiguous? h

/-! ## Implications -/

theorem Equality.Joins.of_eq {e : Equality} {v w : Variable} (h : e.Joins v w) (he : e.Holds σ) :
    σ.of v = σ.of w := by
  rcases h with rfl | rfl
  · exact he
  · exact he.symm

/-- **Implications are sound**: what gadgets imply holds wherever they hold. -/
theorem Implication.Draws.holds {matched : List Gadget} {g : Gadget} (h : Draws matched g)
    (hm : Satisfies hashing σ matched) : g.Holds hashing σ := by
  cases h with
  | carry hperm h =>
    rw [satisfies_of_perm hperm, satisfies_pair] at hm
    obtain ⟨s, w, he, hs, -, rfl⟩ := Equality.carry?_eq_some h
    obtain ⟨n, lo, hi, hn, hlo, hhi, hle⟩ := hm.2
    refine ⟨n, lo, hi, ?_, hlo, hhi, hle⟩
    rw [← hn, ← he.of_eq hm.1, σ.of_eq_of_identity_eq hs]
  | chain hperm h =>
    rw [satisfies_of_perm hperm, satisfies_pair] at hm
    obtain ⟨s, t, x, y, ha, hb, hst, -, rfl⟩ := Equality.chain?_eq_some h
    change σ.of x = σ.of y
    rw [← ha.of_eq hm.1, ← hb.of_eq hm.2, σ.of_eq_of_identity_eq hst]

/-! ## Substitutions -/

/-- Being between two known numbers that agree is being this number. -/
theorem Bounds.holds_iff_of_point? {g : Bounds} {new : List Gadget} (h : g.point? = some new) :
    g.Holds σ ↔ Satisfies hashing σ new := by
  obtain ⟨n, hmin, hmax, rfl⟩ := Bounds.point?_eq_some h
  rw [Bounds.holds_iff hmin hmax, satisfies_singleton]
  change _ ↔ σ.of g.value = σ.of g.min
  rw [σ.of_eq_integer hmin]
  constructor
  · rintro ⟨k, hk, h₁, h₂⟩
    rw [hk, Int.le_antisymm h₂ h₁]
  · intro hv
    exact ⟨n, hv, Int.le_refl n, Int.le_refl n⟩

/-- Ranges that meet at an end and are not empty share just this end. -/
theorem Bounds.holds_iff_of_touch? {a b : Bounds} {new : List Gadget} (h : a.touch? b = some new)
    (ha : a.Valid) (hb : b.Valid) : a.Holds σ ∧ b.Holds σ ↔ Satisfies hashing σ new := by
  obtain ⟨aMin, aMax, bMin, bMax, hmeet, hcase⟩ := Bounds.touch?_eq_some h
  have hale := ha.le hmeet.aMin hmeet.aMax
  have hble := hb.le hmeet.bMin hmeet.bMax
  rw [hmeet.holds_iff]
  rcases hcase with ⟨hends, rfl⟩ | ⟨hends, rfl⟩
  · rw [satisfies_singleton]
    change _ ↔ σ.of a.value = σ.of a.max
    rw [σ.of_eq_integer hmeet.aMax]
    constructor
    · rintro ⟨n, hn, h₁, h₂, h₃, h₄⟩
      rw [hn, show n = aMax by omega]
    · intro hv
      exact ⟨aMax, hv, by omega⟩
  · rw [satisfies_singleton]
    change _ ↔ σ.of a.value = σ.of b.max
    rw [σ.of_eq_integer hmeet.bMax]
    constructor
    · rintro ⟨n, hn, h₁, h₂, h₃, h₄⟩
      rw [hn, show n = bMax by omega]
    · intro hv
      exact ⟨bMax, hv, by omega⟩

theorem Bounds.holds_iff_of_intersect? {a b : Bounds} {new : List Gadget}
    (h : a.intersect? b = some new) : a.Holds σ ∧ b.Holds σ ↔ Satisfies hashing σ new := by
  obtain ⟨aMin, aMax, bMin, bMax, hmeet, -, -, rfl⟩ := Bounds.intersect?_eq_some h
  obtain ⟨hmin, hmax⟩ := ends_of_meet hmeet
  rw [hmeet.holds_iff, satisfies_singleton]
  refine Iff.trans ?_ (Bounds.holds_iff hmin hmax).symm
  refine exists_congr fun n => and_congr_right fun _ => ?_
  omega

/-- **Substitutions are exact**: what replaces gadgets holds where they hold and nowhere else. -/
theorem Substitution.Makes.satisfies_iff {matched new : List Gadget} (h : Makes matched new)
    (hm : ∀ g ∈ matched, g.check = .ok ()) :
    Satisfies hashing σ matched ↔ Satisfies hashing σ new := by
  cases h with
  | point h =>
    rw [satisfies_singleton]
    exact Bounds.holds_iff_of_point? h
  | @touch a b _ _ hperm h =>
    have ha := hm (.bounds a) (hperm.symm.subset List.mem_cons_self)
    have hb := hm (.bounds b) (hperm.symm.subset (List.mem_cons_of_mem _ List.mem_cons_self))
    rw [satisfies_of_perm hperm, satisfies_pair]
    exact Bounds.holds_iff_of_touch? h (Bounds.check_eq_ok_iff.1 ha) (Bounds.check_eq_ok_iff.1 hb)
  | intersect hperm h =>
    rw [satisfies_of_perm hperm, satisfies_pair]
    exact Bounds.holds_iff_of_intersect? h
  | tautology h =>
    obtain ⟨hs, rfl⟩ := Equality.trivial?_eq_some h
    rw [satisfies_singleton]
    exact iff_of_true (of_eq_of_sameOperand hs) (by simp [Satisfies])
  | distinct h =>
    obtain ⟨hd, rfl⟩ := Inequality.trivial?_eq_some h
    rw [satisfies_singleton]
    exact iff_of_true (σ.of_ne_of_distinctKnown hd) (by simp [Satisfies])
  | single h =>
    obtain ⟨e, he, rfl⟩ := Membership.single?_eq_some h
    rw [satisfies_singleton, satisfies_singleton]
    simp only [Gadget.Holds, Membership.Holds, Equality.Holds, he, List.mem_singleton,
      exists_eq_left]

end Attestation
