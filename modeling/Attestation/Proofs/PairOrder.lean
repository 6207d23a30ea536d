import Attestation.Proofs.Exhaustion

/-!
# Rules do not see the order of a pair

A rule about two gadgets is tried on each pair of a list once, in the order of the list. A rule
about one kind of gadget asks its questions of the first gadget before the second: which side of an
equality is shared, which end of a range meets the other. The answers may come from different
places, yet what is made of them is the same (`Equality.exists_chain?_swap`,
`Bounds.exists_touch?_swap`, `Bounds.exists_intersect?_swap`). So a rule takes or leaves a pair
whatever its order (`Pattern.OrderFree`), and trying one order misses nothing: `RuleSet.order_free`.

For ranges this takes the contract: two ranges that end before they start may touch at two points.
-/

namespace Attestation

variable {α β ω : Type}

/-! ## Patterns -/

/-- Answers are related if each answer of the first has a partner, and the second answers only where
the first does. -/
theorem rel_of_exists {R : α → β → Prop} {o : Option α} {o' : Option β}
    (h : ∀ a, o = some a → ∃ b, o' = some b ∧ R a b) (h' : ∀ b, o' = some b → ∃ a, o = some a) :
    Option.Rel R o o' := by
  cases ho : o with
  | some a =>
    obtain ⟨b, hb, hab⟩ := h a ho
    exact hb ▸ .some hab
  | none =>
    cases ho' : o' with
    | none => exact .none
    | some b =>
      obtain ⟨a, ha⟩ := h' b ho'
      rw [ho] at ha
      cases ha

namespace Pattern

variable {R : α → α → Prop} {x y : Gadget}

/-- A rule about two gadgets does not see the order of a pair: it is about both orders or about
neither, and what it says of them is related, or nothing both times. -/
def OrderFree (R : α → α → Prop) (x y : Gadget) : Pattern (Option α) → Prop
  | .unary _ => True
  | .binary apply => Option.Rel (Option.Rel R) (apply x y) (apply y x)

/-- A rule about gadgets of one kind sees no order if its answer does not. -/
theorem orderFree_two_same {view? : Gadget → Option β} {rule : β → β → Option α}
    (h : ∀ a b, view? x = some a → view? y = some b → Option.Rel R (rule a b) (rule b a)) :
    (two view? view? rule).OrderFree R x y := by
  unfold two OrderFree
  dsimp only
  cases hx : view? x with
  | none => cases view? y <;> exact .none
  | some a =>
    cases hy : view? y with
    | none => exact .none
    | some b => exact .some (h a b hx hy)

/-- A rule about gadgets of two kinds finds out itself which is which. -/
theorem orderFree_two_of_none {left? : Gadget → Option β} {right? : Gadget → Option ω}
    {rule : β → ω → Option α} (hR : ∀ a, R a a) (hkinds : ∀ g, left? g = none ∨ right? g = none) :
    (two left? right? rule).OrderFree R x y := by
  have hrefl : ∀ o : Option (Option α), Option.Rel (Option.Rel R) o o := by
    rintro (_ | _ | a)
    · exact .none
    · exact .some .none
    · exact .some (.some (hR a))
  unfold two OrderFree
  dsimp only
  rcases hkinds x with hx | hx <;> rcases hkinds y with hy | hy <;> simp only [hx, hy]
  · exact .none
  · cases left? y <;> cases right? x <;> exact hrefl _
  · cases left? x <;> cases right? y <;> exact hrefl _
  · cases left? x <;> cases left? y <;> exact .none

theorem OrderFree.says_swap {pattern : Pattern (Option α)} (h : pattern.OrderFree R x y) {a : α}
    (hsaid : pattern.Says [x, y] a) : ∃ a', pattern.Says [y, x] a' ∧ R a a' := by
  cases pattern with
  | unary apply => exact hsaid.elim
  | binary apply =>
    change Option.Rel (Option.Rel R) (apply x y) (apply y x) at h
    change (apply x y).join = some a at hsaid
    rw [Option.join_eq_some_iff.1 hsaid] at h
    cases hyx : apply y x with
    | none => rw [hyx] at h; cases h
    | some o =>
      rw [hyx] at h
      obtain ⟨⟨hR⟩⟩ := h
      exact ⟨_, congrArg Option.join hyx, hR⟩

/-- **Of a pair that stands in a list in some order, the rule says as much in that order.** -/
theorem OrderFree.exists_sublist {pattern : Pattern (Option α)} (h : pattern.OrderFree R x y)
    (hR : ∀ a, R a a) {gadgets : List Gadget} (hpair : [x, y].Subperm gadgets) {a : α}
    (hsaid : pattern.Says [x, y] a) :
    ∃ x' y' a', [x', y'].Sublist gadgets ∧ pattern.Says [x', y'] a' ∧ R a a' := by
  obtain ⟨matched, hperm, hsub⟩ := hpair
  rcases List.perm_pair.1 hperm with rfl | rfl
  · exact ⟨x, y, a, hsub, hsaid, hR a⟩
  · obtain ⟨a', hsaid', haa'⟩ := h.says_swap hsaid
    exact ⟨y, x, a', hsub, hsaid', haa'⟩

end Pattern

/-! ## Equalities -/

namespace Equality

/-- Sides that two equalities do not share are found in either order, unless they are the same. -/
theorem outer?_swap {a b : Equality} {x y : Variable} (h : a.outer? b = some (x, y))
    (hne : x.identity ≠ y.identity) : b.outer? a = some (y, x) := by
  unfold outer? counterpart? at h ⊢
  simp only [Variable.same, decide_eq_true_eq] at h ⊢
  -- Which sides are shared decides both answers. Where they would come from different sides, all
  -- sides are shared, and then the others are the same.
  by_cases hll : a.left.identity = b.left.identity <;>
    by_cases hlr : a.left.identity = b.right.identity <;>
    by_cases hrl : a.right.identity = b.left.identity <;>
    by_cases hrr : a.right.identity = b.right.identity <;>
    simp_all [eq_comm]

/-- **Equalities that share a side imply the same in either order.** -/
theorem exists_chain?_swap {a b : Equality} {g : Gadget} (h : a.chain? b = some g) :
    ∃ g', b.chain? a = some g' ∧ g.same g' = true := by
  unfold chain? at h ⊢
  obtain ⟨⟨x, y⟩, hxy, h⟩ := Option.bind_eq_some_iff.1 h
  dsimp only at h
  split_ifs at h with hsame
  cases h
  rw [Variable.same_comm] at hsame
  have hne : x.identity ≠ y.identity := fun heq => hsame ((Variable.same_iff y x).2 heq.symm)
  refine ⟨.equality ⟨y, x⟩, ?_, samePair_iff.2 (.inr ⟨rfl, rfl⟩)⟩
  simp only [outer?_swap hxy hne, Option.bind_eq_bind, Option.bind_some, if_neg hsame]
  rfl

end Equality

/-! ## Ranges -/

theorem Variable.identity_eq_of_integer? {v w : Variable} {n : Int} (hv : v.integer? = some n)
    (hw : w.integer? = some n) : v.identity = w.identity :=
  (integer?_eq_some_iff_identity.1 hv).trans (integer?_eq_some_iff_identity.1 hw).symm

section

variable {a b : Bounds} {aMin aMax bMin bMax : Int}

/-- Ranges that are not empty touch in one point only: where the first of them ends. -/
theorem touch_of_meet (hmeet : a.Meet b aMin aMax bMin bMax) (ha : a.Valid) (hb : b.Valid)
    (hends : aMax = bMin ∨ bMax = aMin) :
    ∃ point, a.touch? b = some [.equality ⟨a.value, point⟩] ∧
      point.integer? = some (min aMax bMax) := by
  have hale := ha.le hmeet.aMin hmeet.aMax
  have hble := hb.le hmeet.bMin hmeet.bMax
  obtain ⟨hra, hrb⟩ := hmeet.range?
  by_cases h : aMax = bMin
  · refine ⟨a.max, by simp [Bounds.touch?, hmeet.same, hra, hrb, h], ?_⟩
    rw [hmeet.aMax, Int.min_eq_left (by omega)]
  · have h' := hends.resolve_left h
    refine ⟨b.max, by simp [Bounds.touch?, hmeet.same, hra, hrb, h, h'], ?_⟩
    rw [hmeet.bMax, Int.min_eq_right (by omega)]

/-- Ranges that overlap do so from the later start to the earlier end. -/
theorem intersect_of_meet (hmeet : a.Meet b aMin aMax bMin bMax) (h₁ : bMin ≤ aMax)
    (h₂ : aMin ≤ bMax) :
    ∃ lower upper, a.intersect? b = some [.bounds ⟨a.value, lower, upper⟩] ∧
      lower.integer? = some (max aMin bMin) ∧ upper.integer? = some (min aMax bMax) := by
  obtain ⟨hra, hrb⟩ := hmeet.range?
  have hnot : ¬ (aMax < bMin ∨ bMax < aMin) := by omega
  refine ⟨_, _, ?_, ends_of_meet hmeet⟩
  simp only [Bounds.intersect?, hmeet.same, hra, hrb, if_true, Option.bind_eq_bind,
    Option.bind_some, if_neg hnot]
  rfl

end

namespace Bounds

variable {a b : Bounds} {new : List Gadget}

/-- **Ranges that touch pin their value to one point in either order.** -/
theorem exists_touch?_swap (ha : a.Valid) (hb : b.Valid) (h : a.touch? b = some new) :
    ∃ new', b.touch? a = some new' ∧ List.Forall₂ (fun g g' => g.same g' = true) new new' := by
  obtain ⟨aMin, aMax, bMin, bMax, hmeet, hends⟩ := exists_touch?_iff.1 ⟨_, h⟩
  obtain ⟨point, hnew, hpoint⟩ := touch_of_meet hmeet ha hb hends
  obtain ⟨point', hnew', hpoint'⟩ := touch_of_meet hmeet.symm hb ha hends.symm
  rw [Int.min_comm] at hpoint'
  obtain rfl := Option.some.inj (h.symm.trans hnew)
  refine ⟨_, hnew', .cons ?_ .nil⟩
  exact samePair_iff.2 (.inl ⟨hmeet.value, Variable.identity_eq_of_integer? hpoint hpoint'⟩)

/-- **Ranges that overlap have one intersection in either order.** -/
theorem exists_intersect?_swap (h : a.intersect? b = some new) :
    ∃ new', b.intersect? a = some new' ∧ List.Forall₂ (fun g g' => g.same g' = true) new new' := by
  obtain ⟨aMin, aMax, bMin, bMax, hmeet, h₁, h₂⟩ := exists_intersect?_iff.1 ⟨_, h⟩
  obtain ⟨lower, upper, hnew, hlower, hupper⟩ := intersect_of_meet hmeet h₁ h₂
  obtain ⟨lower', upper', hnew', hlower', hupper'⟩ := intersect_of_meet hmeet.symm h₂ h₁
  rw [Int.max_comm] at hlower'
  rw [Int.min_comm] at hupper'
  obtain rfl := Option.some.inj (h.symm.trans hnew)
  refine ⟨_, hnew', .cons ?_ .nil⟩
  simp only [Gadget.same, Bounds.same, Bool.and_eq_true, Variable.same_iff]
  exact ⟨⟨hmeet.value, Variable.identity_eq_of_integer? hlower hlower'⟩,
    Variable.identity_eq_of_integer? hupper hupper'⟩

end Bounds

/-! ## All rules -/

section

variable {x y : Gadget}

theorem Contradiction.orderFree (rule : Contradiction) :
    rule.pattern.OrderFree (fun _ _ => True) x y := by
  cases rule with
  | disjointRanges =>
    refine Pattern.orderFree_two_same fun a b _ _ => rel_of_exists (fun e he => ?_) fun e he => ?_
    · obtain ⟨e', he'⟩ := Bounds.exists_disjoint?_swap he
      exact ⟨e', he', trivial⟩
    · exact Bounds.exists_disjoint?_swap he
  | equalAndUnequal =>
    refine Pattern.orderFree_two_of_none (fun _ => trivial) fun g => ?_
    cases g <;> simp [Gadget.equality?, Gadget.inequality?]
  | conflictingImages =>
    refine Pattern.orderFree_two_same fun a b _ _ => rel_of_exists (fun e he => ?_) fun e he => ?_
    · obtain ⟨e', he'⟩ := MimcHash.exists_ambiguous?_swap he
      exact ⟨e', he', trivial⟩
    · exact MimcHash.exists_ambiguous?_swap he
  | emptyRange | unequalValues | selfInequality | nonMember => trivial

theorem Implication.orderFree (rule : Implication) :
    rule.pattern.OrderFree (fun g h => g.same h = true) x y := by
  cases rule with
  | boundsOverEquality =>
    refine Pattern.orderFree_two_of_none Gadget.same_refl fun g => ?_
    cases g <;> simp [Gadget.equality?, Gadget.bounds?]
  | transitivity =>
    refine Pattern.orderFree_two_same fun a b _ _ => rel_of_exists (fun g hg => ?_) fun g hg => ?_
    · exact Equality.exists_chain?_swap hg
    · exact (Equality.exists_chain?_swap hg).imp fun _ h => h.1

theorem Substitution.orderFree (hx : x.check = .ok ()) (hy : y.check = .ok ())
    (rule : Substitution) :
    rule.pattern.OrderFree (List.Forall₂ fun g h => g.same h = true) x y := by
  cases rule with
  | sharedBoundary =>
    refine Pattern.orderFree_two_same fun a b hxa hyb => ?_
    rw [Gadget.bounds?_eq_some_iff.1 hxa] at hx
    rw [Gadget.bounds?_eq_some_iff.1 hyb] at hy
    have ha := Bounds.check_eq_ok_iff.1 hx
    have hb := Bounds.check_eq_ok_iff.1 hy
    exact rel_of_exists (fun new hnew => Bounds.exists_touch?_swap ha hb hnew)
      fun new hnew => (Bounds.exists_touch?_swap hb ha hnew).imp fun _ h => h.1
  | rangeIntersection =>
    refine Pattern.orderFree_two_same fun a b _ _ => ?_
    exact rel_of_exists (fun new hnew => Bounds.exists_intersect?_swap hnew)
      fun new hnew => (Bounds.exists_intersect?_swap hnew).imp fun _ h => h.1
  | pointRange | tautology | distinctValues | singleElement => trivial

end

namespace RuleSet

open Optimizer (sealedInteger)

/-- **The order of a pair does not matter.** Of two gadgets that meet their contracts, a rule is
about both orders or about neither. A contradiction is found in both or in neither, and an
implication or a substitution gives nothing of both, or the same gadgets of both. So a list in which
the two stand, whichever comes first, does not hide what a rule has to say about them: if they
contradict each other, a contradiction is found; what they imply is among what is implied; and if
they can be replaced, there is a substitution. -/
theorem order_free {x y : Gadget} (hx : x.check = .ok ()) (hy : y.check = .ok ()) :
    (∀ rule : Contradiction, rule.pattern.OrderFree (fun _ _ => True) x y) ∧
    (∀ rule : Implication, rule.pattern.OrderFree (fun g h => g.same h = true) x y) ∧
    (∀ rule : Substitution,
      rule.pattern.OrderFree (List.Forall₂ fun g h => g.same h = true) x y) ∧
    ∀ (rules : RuleSet) (gadgets : List Gadget), [x, y].Subperm gadgets →
      (∀ rule ∈ rules.contradictions, ∀ error, rule.pattern.Says [x, y] error →
        ∃ error', rules.contradiction? gadgets = some error') ∧
      (∀ rule ∈ rules.implications, ∀ g, rule.pattern.Says [x, y] g →
        ∃ h ∈ rules.implied gadgets, g.same h = true) ∧
      (∀ rule ∈ rules.substitutions, ∀ new, rule.pattern.Says [x, y] new →
        ∃ found, rules.substitution? gadgets = some found) := by
  refine ⟨Contradiction.orderFree, Implication.orderFree, Substitution.orderFree hx hy,
    fun rules gadgets hpair => ⟨fun rule hrule error hsaid => ?_, fun rule hrule g hsaid => ?_,
      fun rule hrule new hsaid => ?_⟩⟩
  · obtain ⟨x', y', error', hsub, hsaid', -⟩ :=
      rule.orderFree.exists_sublist (fun _ => trivial) hpair hsaid
    by_contra hnone
    have hsilent := contradiction?_eq_none_iff.1 (Option.eq_none_iff_forall_ne_some.2
      fun e he => hnone ⟨e, he⟩)
    exact hsilent rule hrule _ _ hsub hsaid'
  · obtain ⟨x', y', h, hsub, hsaid', hsame⟩ :=
      rule.orderFree.exists_sublist Gadget.same_refl hpair hsaid
    exact ⟨h, mem_implied_of_says rule hrule hsub hsaid', hsame⟩
  · have hrefl : ∀ l : List Gadget, List.Forall₂ (fun g h => g.same h = true) l l :=
      fun l => List.forall₂_same.2 fun g _ => Gadget.same_refl g
    obtain ⟨x', y', new', hsub, hsaid', -⟩ :=
      (Substitution.orderFree hx hy rule).exists_sublist hrefl hpair hsaid
    by_contra hnone
    have hsilent := substitution?_eq_none_iff.1 (Option.eq_none_iff_forall_ne_some.2
      fun found hfound => hnone ⟨found, hfound⟩)
    exact hsilent rule hrule _ _ hsub hsaid'

/-- Bounds of `a` between two numbers. -/
def rangeOfA (least greatest : Int) : Gadget :=
  .bounds ⟨sealedInteger "a", .constant (.integer least), .constant (.integer greatest)⟩

/-- Ranges that touch at `7` stand in a list the other way round, with an equality between them. -/
theorem order_free_touchingRanges :
    (rangeOfA 3 7).check = .ok () ∧ (rangeOfA 7 9).check = .ok () ∧
      ∃ found, substitution? ⟨[], [], [.sharedBoundary]⟩
        [rangeOfA 7 9, .equality ⟨sealedInteger "a", sealedInteger "b"⟩, rangeOfA 3 7] =
          some found := by
  have hlow : (rangeOfA 3 7).check = .ok () := by decide +kernel
  have hhigh : (rangeOfA 7 9).check = .ok () := by decide +kernel
  have hpair : [rangeOfA 3 7, rangeOfA 7 9].Subperm
      [rangeOfA 7 9, .equality ⟨sealedInteger "a", sealedInteger "b"⟩, rangeOfA 3 7] :=
    List.subperm_of_subset (by decide) (by decide)
  have hsaid : Substitution.sharedBoundary.pattern.Says [rangeOfA 3 7, rangeOfA 7 9]
      [.equality ⟨sealedInteger "a", .constant (.integer 7)⟩] :=
    Pattern.says_two_of rfl rfl (by decide)
  obtain ⟨-, -, -, hlist⟩ := order_free hlow hhigh
  exact ⟨hlow, hhigh, (hlist _ _ hpair).2.2 .sharedBoundary (by decide) _ hsaid⟩

-- The contract is needed: a range that ends before it starts may touch another at both ends.
example :
    let a : Bounds := ⟨sealedInteger "a", .constant (.integer 10), .constant (.integer 0)⟩
    let b : Bounds := ⟨sealedInteger "a", .constant (.integer 0), .constant (.integer 10)⟩
    a.touch? b = some [.equality ⟨sealedInteger "a", .constant (.integer 0)⟩] ∧
      b.touch? a = some [.equality ⟨sealedInteger "a", .constant (.integer 10)⟩] := by
  decide

end RuleSet

end Attestation
