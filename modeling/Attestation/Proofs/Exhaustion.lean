import Attestation.Proofs.NormalForm
import Attestation.Proofs.Sameness
import Mathlib.Data.List.Permutation

/-!
# Where rules have nothing more to say

A rule about two gadgets is tried on a pair in one order only, that of the list. No rule gains from
the other order (`Contradiction.Finds.exists_says`, `Substitution.Makes.exists_says`), so that where
all rules are silent there are no gadgets at all that a rule applies to, in whatever order they are
taken (`RuleSet.not_finds`, `RuleSet.not_makes`).

The main statement says what the optimizer leaves under all rules (`Normal`,
`Optimizer.optimize_normal`).
-/

namespace Attestation

/-! ## Pairs in either order -/

/-- A rule about two gadgets of one kind that says something in either order. -/
theorem Pattern.exists_says_two {α β : Type} {view? : Gadget → Option β} {rule : β → β → Option α}
    {matched : List Gadget} {x y : Gadget} {b c : β} {a : α} (hperm : matched.Perm [x, y])
    (hx : view? x = some b) (hy : view? y = some c) (h : rule b c = some a)
    (hswap : ∃ a', rule c b = some a') : ∃ a', (two view? view? rule).Says matched a' := by
  rcases List.perm_pair.1 hperm with rfl | rfl
  · exact ⟨a, says_two_of hx hy h⟩
  · obtain ⟨a', h'⟩ := hswap
    exact ⟨a', says_two_of hy hx h'⟩

/-- A rule about gadgets of two kinds says the same in either order. -/
theorem Pattern.says_two_of_perm {α β ω : Type} {left? : Gadget → Option β}
    {right? : Gadget → Option ω} {rule : β → ω → Option α} {matched : List Gadget} {x y : Gadget}
    {b : β} {c : ω} {a : α} (hperm : matched.Perm [x, y]) (hx : left? x = some b)
    (hy : right? y = some c) (hleft : left? y = none) (h : rule b c = some a) :
    (two left? right? rule).Says matched a := by
  rcases List.perm_pair.1 hperm with rfl | rfl
  · exact says_two_of hx hy h
  · exact says_two_swap hleft hy hx h

theorem Bounds.exists_disjoint?_swap {a b : Bounds} {error : Diagnostic}
    (h : a.disjoint? b = some error) : ∃ error', b.disjoint? a = some error' := by
  obtain ⟨aMin, aMax, bMin, bMax, hmeet, hapart⟩ := exists_disjoint?_iff.1 ⟨_, h⟩
  exact exists_disjoint?_iff.2 ⟨_, _, _, _, hmeet.symm, hapart.symm⟩

theorem MimcHash.exists_ambiguous?_swap {a b : MimcHash} {error : Diagnostic}
    (h : a.ambiguous? b = some error) : ∃ error', b.ambiguous? a = some error' := by
  obtain ⟨hpreimage, hdistinct⟩ := exists_ambiguous?_iff.1 ⟨_, h⟩
  exact exists_ambiguous?_iff.2 ⟨hpreimage.symm, distinctKnown_comm a.image b.image ▸ hdistinct⟩

/-- Gadgets that contradict each other are found to, in whatever order they stand. -/
theorem Contradiction.Finds.exists_says {matched matched' : List Gadget} {error : Diagnostic}
    (h : Finds matched error) (hperm : matched'.Perm matched) :
    ∃ (rule : Contradiction) (error' : Diagnostic), rule.pattern.Says matched' error' := by
  cases h with
  | empty h =>
    obtain rfl := List.perm_singleton.1 hperm
    exact ⟨.emptyRange, _, Pattern.says_one_of rfl h⟩
  | disjoint hpair h =>
    exact ⟨.disjointRanges, Pattern.exists_says_two (hperm.trans hpair) rfl rfl h
      (Bounds.exists_disjoint?_swap h)⟩
  | unequal h =>
    obtain rfl := List.perm_singleton.1 hperm
    exact ⟨.unequalValues, _, Pattern.says_one_of rfl h⟩
  | reflexive h =>
    obtain rfl := List.perm_singleton.1 hperm
    exact ⟨.selfInequality, _, Pattern.says_one_of rfl h⟩
  | denied hpair h =>
    exact ⟨.equalAndUnequal, _, Pattern.says_two_of_perm (hperm.trans hpair) rfl rfl rfl h⟩
  | excluded h =>
    obtain rfl := List.perm_singleton.1 hperm
    exact ⟨.nonMember, _, Pattern.says_one_of rfl h⟩
  | ambiguous hpair h =>
    exact ⟨.conflictingImages, Pattern.exists_says_two (hperm.trans hpair) rfl rfl h
      (MimcHash.exists_ambiguous?_swap h)⟩

/-- Gadgets that can be replaced are found to be, in whatever order they stand. -/
theorem Substitution.Makes.exists_says {matched matched' new : List Gadget}
    (h : Makes matched new) (hperm : matched'.Perm matched) :
    ∃ (rule : Substitution) (new' : List Gadget), rule.pattern.Says matched' new' := by
  cases h with
  | point h =>
    obtain rfl := List.perm_singleton.1 hperm
    exact ⟨.pointRange, _, Pattern.says_one_of rfl h⟩
  | touch hpair h =>
    obtain ⟨aMin, aMax, bMin, bMax, hmeet, hends⟩ := Bounds.exists_touch?_iff.1 ⟨_, h⟩
    exact ⟨.sharedBoundary, Pattern.exists_says_two (hperm.trans hpair) rfl rfl h
      (Bounds.exists_touch?_iff.2 ⟨_, _, _, _, hmeet.symm, hends.symm⟩)⟩
  | intersect hpair h =>
    obtain ⟨aMin, aMax, bMin, bMax, hmeet, h₁, h₂⟩ := Bounds.exists_intersect?_iff.1 ⟨_, h⟩
    exact ⟨.rangeIntersection, Pattern.exists_says_two (hperm.trans hpair) rfl rfl h
      (Bounds.exists_intersect?_iff.2 ⟨_, _, _, _, hmeet.symm, h₂, h₁⟩)⟩
  | tautology h =>
    obtain rfl := List.perm_singleton.1 hperm
    exact ⟨.tautology, _, Pattern.says_one_of rfl h⟩
  | distinct h =>
    obtain rfl := List.perm_singleton.1 hperm
    exact ⟨.distinctValues, _, Pattern.says_one_of rfl h⟩
  | single h =>
    obtain rfl := List.perm_singleton.1 hperm
    exact ⟨.singleElement, _, Pattern.says_one_of rfl h⟩

/-! ## Silence -/

namespace RuleSet

variable {gadgets matched : List Gadget}

/-- Where no contradiction is found there is none. -/
theorem not_finds (h : standard.contradiction? gadgets = none) (hsub : matched.Subperm gadgets)
    {error : Diagnostic} : ¬ Contradiction.Finds matched error := by
  intro hfinds
  obtain ⟨matched', hperm, hsub⟩ := hsub
  obtain ⟨rule, error', hsays⟩ := hfinds.exists_says hperm
  have hrule : rule ∈ standard.contradictions := by cases rule <;> decide
  exact contradiction?_eq_none_iff.1 h rule hrule _ _ hsub hsays

/-- Where no substitution is found there is none. -/
theorem not_makes (h : standard.substitution? gadgets = none) (hsub : matched.Subperm gadgets)
    {new : List Gadget} : ¬ Substitution.Makes matched new := by
  intro hmakes
  obtain ⟨matched', hperm, hsub⟩ := hsub
  obtain ⟨rule, new', hsays⟩ := hmakes.exists_says hperm
  have hrule : rule ∈ standard.substitutions := by cases rule <;> decide
  exact substitution?_eq_none_iff.1 h rule hrule _ _ hsub hsays

end RuleSet

/-! ## What is left -/

namespace Settled

variable {out matched : List Gadget} {v w : Identity}

theorem not_finds (h : Settled out) (hsub : matched.Subperm out) {error : Diagnostic} :
    ¬ Contradiction.Finds matched error :=
  RuleSet.not_finds h.contradiction hsub

theorem not_makes (h : Settled out) (hsub : matched.Subperm out) {new : List Gadget} :
    ¬ Substitution.Makes matched new :=
  RuleSet.not_makes h.substitution hsub

/-- Known values that are said to be equal are one. -/
theorem eq_of_links (h : Settled out) (hl : Links out v w) (hv : v.Known) (hw : w.Known) :
    v = w := by
  by_contra hne
  obtain ⟨e, x, y, he, hxy, rfl, rfl⟩ := hl
  have hdistinct : distinctKnown e.left e.right = true := by
    rcases hxy with rfl | rfl
    · exact distinctKnown_iff.2 ⟨hv, hw, hne⟩
    · exact distinctKnown_iff.2 ⟨hw, hv, Ne.symm hne⟩
  obtain ⟨error, herror⟩ := Equality.exists_unequal?_iff.2 hdistinct
  exact h.not_finds (List.singleton_sublist.2 he).subperm (.unequal herror)

/-- Quantities that are said to differ are not said to be equal. -/
theorem not_links (h : Settled out) {i : Inequality} (hi : .inequality i ∈ out) :
    ¬ Links out i.left.identity i.right.identity := by
  rintro ⟨e, x, y, he, hxy, hx, hy⟩
  have hpair : samePair e.left e.right i.left i.right = true := by
    rcases hxy with rfl | rfl
    · exact samePair_iff.2 (.inl ⟨hx, hy⟩)
    · exact samePair_iff.2 (.inr ⟨hy, hx⟩)
  obtain ⟨error, herror⟩ := Equality.exists_denied?_iff.2 hpair
  have hsub : [Gadget.equality e, .inequality i].Subperm out :=
    List.subperm_of_subset (by simp) (by simp [he, hi])
  exact h.not_finds hsub (.denied (.refl _) herror)

/-- Nothing is said to differ from itself, but for known witnesses. -/
theorem not_sameOperand_inequality (h : Settled out) {i : Inequality} (hi : .inequality i ∈ out) :
    sameOperand i.left i.right = false := by
  rw [Bool.eq_false_iff]
  intro hsame
  obtain ⟨error, herror⟩ := Inequality.exists_reflexive?_iff.2 hsame
  exact h.not_finds (List.singleton_sublist.2 hi).subperm (.reflexive herror)

/-- Different known values are not said to differ. -/
theorem not_distinctKnown (h : Settled out) {i : Inequality} (hi : .inequality i ∈ out) :
    distinctKnown i.left i.right = false := by
  rw [Bool.eq_false_iff]
  intro hdistinct
  have htrivial : i.trivial? = some [] := by simp [Inequality.trivial?, hdistinct]
  exact h.not_makes (List.singleton_sublist.2 hi).subperm (.distinct htrivial)

/-- Nothing is said to equal itself, but for known witnesses. -/
theorem not_sameOperand_equality (h : Settled out) {e : Equality} (he : .equality e ∈ out) :
    sameOperand e.left e.right = false := by
  rw [Bool.eq_false_iff]
  intro hsame
  have htrivial : e.trivial? = some [] := by simp [Equality.trivial?, hsame]
  exact h.not_makes (List.singleton_sublist.2 he).subperm (.tautology htrivial)

/-- No set has a single element. -/
theorem length_ne_one (h : Settled out) {m : Membership} (hm : .membership m ∈ out) :
    m.set.length ≠ 1 := by
  intro hlength
  obtain ⟨only, honly⟩ := List.length_eq_one_iff.1 hlength
  have hsingle : m.single? = some [.equality ⟨m.member, only⟩] := by
    simp [Membership.single?, honly]
  exact h.not_makes (List.singleton_sublist.2 hm).subperm (.single hsingle)

/-- Bounds that stand side by side are of different quantities. -/
theorem value_ne (h : Settled out) {a b : Bounds}
    (hsub : [Gadget.bounds a, .bounds b].Subperm out) : a.value.identity ≠ b.value.identity := by
  intro hvalue
  have hmem : .bounds a ∈ out ∧ .bounds b ∈ out := by simpa using hsub.subset
  obtain ⟨aMin, aMax, haMin, haMax, -⟩ := (h.valid_bounds hmem.1).range
  obtain ⟨bMin, bMax, hbMin, hbMax, -⟩ := (h.valid_bounds hmem.2).range
  have ha : a.Spans b.value.identity aMin aMax := ⟨hvalue, haMin, haMax⟩
  have hb : b.Spans b.value.identity bMin bMax := ⟨rfl, hbMin, hbMax⟩
  obtain ⟨l, hperm, hsub⟩ := hsub
  rcases List.perm_pair.1 hperm with rfl | rfl
  · exact h.not_sublist_bounds ha hb hsub
  · exact h.not_sublist_bounds hb ha hsub

/-- A quantity has bounds once at most. -/
theorem nodup_values (h : Settled out) :
    ((out.filterMap Gadget.bounds?).map fun b => b.value.identity).Nodup := by
  rw [List.Nodup, List.pairwise_map, List.pairwise_filterMap, List.pairwise_iff_forall_sublist]
  intro x y hsub a ha b hb
  obtain rfl := Gadget.bounds?_eq_some_iff.1 ha
  obtain rfl := Gadget.bounds?_eq_some_iff.1 hb
  exact h.value_ne hsub.subperm

end Settled

/-- What rules leave alone: gadgets that say nothing twice, that no contradiction or substitution
applies to, one by one or in pairs, and whose equalities are closed. -/
structure Normal (out : List Gadget) : Prop where
  /-- No two gadgets are the same. -/
  same_eq_false : ∀ i j : Fin out.length, i ≠ j → (out.get i).same (out.get j) = false
  /-- No contradiction is found in a gadget or in two, in whatever order. -/
  not_contradiction : ∀ (rule : Contradiction) (matched : List Gadget) (error : Diagnostic),
    matched.Subperm out → ¬ rule.pattern.Says matched error
  /-- No gadget and no two gadgets can be replaced. -/
  not_substitution : ∀ (rule : Substitution) (matched new : List Gadget),
    matched.Subperm out → ¬ rule.pattern.Says matched new
  /-- A quantity has bounds once. -/
  bounds : ∀ a b : Bounds, [Gadget.bounds a, .bounds b].Subperm out →
    a.value.identity ≠ b.value.identity
  /-- No set has a single element. -/
  membership : ∀ m : Membership, .membership m ∈ out → m.set.length ≠ 1
  /-- Only a known witness is said to equal itself. -/
  equality : ∀ e : Equality, .equality e ∈ out → e.left.identity = e.right.identity →
    e.left.visibility = .witness ∧ e.left.literal.isSealed = false
  /-- What equals a third quantity is said to be equal. -/
  transitive : ∀ (a b : Equality) (x s t y : Variable), .equality a ∈ out → .equality b ∈ out →
    a.Joins x s → b.Joins t y → s.identity = t.identity → x.identity ≠ y.identity →
    GadgetSet.has out (.equality ⟨x, y⟩) = true

theorem GadgetSet.Distinct.same_eq_false {set : GadgetSet} (h : set.Distinct)
    (hcheck : ∀ g ∈ set, g.check = .ok ()) {i j : Fin set.length} (hij : i ≠ j) :
    (set.get i).same (set.get j) = false := by
  rcases Nat.lt_or_gt_of_ne (Fin.val_ne_of_ne hij) with hlt | hlt
  · exact List.pairwise_iff_getElem.1 h i j i.2 j.2 hlt
  · -- the list compares the two the other way round
    rw [Bool.eq_false_iff]
    intro hsame
    have hswap := Gadget.same_symm hsame (hcheck _ (List.get_mem _ _))
    have hfalse := List.pairwise_iff_getElem.1 h j i j.2 i.2 hlt
    exact Bool.false_ne_true (hfalse.symm.trans hswap)

theorem Settled.normal {out : List Gadget} (h : Settled out) : Normal out where
  same_eq_false i j hij := h.distinct.same_eq_false h.check hij
  not_contradiction rule matched error hsub hsays :=
    h.not_finds hsub (Contradiction.finds_of_says hsays)
  not_substitution rule matched new hsub hsays :=
    h.not_makes hsub (Substitution.makes_of_says hsays)
  bounds a b hsub := h.value_ne hsub
  membership m hm := h.length_ne_one hm
  equality e he heq := by
    have hnot := h.not_sameOperand_equality he
    rw [Bool.eq_false_iff, ne_eq, sameOperand_iff, not_and, not_or] at hnot
    obtain ⟨hvisible, hsealed⟩ := hnot heq
    refine ⟨?_, Bool.eq_false_iff.2 hsealed⟩
    cases hv : e.left.visibility with
    | witness => rfl
    | disclosed => exact absurd hv hvisible
  transitive a b x s t y ha hb hx hy hst hne := by
    have hxs : Links out x.identity s.identity := ⟨a, x, s, ha, hx, rfl, rfl⟩
    have hsy : Links out s.identity y.identity := ⟨b, t, y, hb, hy, hst.symm, rfl⟩
    exact GadgetSet.has_equality_iff.2 (h.links_trans hxs hsy hne)

namespace Optimizer

/-- **The normal form of gadgets.** Whatever gadgets meet their contracts, what the optimizer gives
under all rules is normal. -/
theorem optimize_normal (cap : Nat) (gadgets out : List Gadget)
    (hcheck : ∀ g ∈ gadgets, g.check = .ok ()) (h : optimize .standard cap gadgets = .ok out) :
    Normal out :=
  (settled_of_optimize hcheck h).normal

/-- Overlapping ranges, a set of one number and an equality that carries both over. -/
def overlappingRanges : List Gadget :=
  [.bounds ⟨sealedInteger "a", .constant (.integer 0), .constant (.integer 10)⟩,
    .bounds ⟨sealedInteger "a", .constant (.integer 5), .constant (.integer 20)⟩,
    .membership ⟨sealedInteger "b", [.constant (.integer 7)]⟩,
    .inequality ⟨.constant (.integer 3), .constant (.integer 4)⟩,
    .equality ⟨sealedInteger "a", sealedInteger "b"⟩]

/-- The gadgets that are left of them. -/
def overlappingRest : List Gadget :=
  [.equality ⟨sealedInteger "a", sealedInteger "b"⟩,
    .bounds ⟨sealedInteger "a", .constant (.integer 5), .constant (.integer 10)⟩,
    .bounds ⟨sealedInteger "b", .constant (.integer 5), .constant (.integer 10)⟩,
    .equality ⟨sealedInteger "b", .constant (.integer 7)⟩,
    .equality ⟨sealedInteger "a", .constant (.integer 7)⟩]

theorem optimize_normal_overlappingRanges :
    optimize .standard 8 overlappingRanges = .ok overlappingRest ∧ Normal overlappingRest := by
  have h : optimize .standard 8 overlappingRanges = .ok overlappingRest := by decide +kernel
  exact ⟨h, optimize_normal _ _ _ (by decide +kernel) h⟩

end Optimizer

end Attestation
