import Attestation.Proofs.Assignment
import Attestation.Proofs.OptimizerRun

/-!
# Equalities and ranges of quantities

Rules tell variables apart by their identities alone. For what they do with equalities and bounds it
matters only which quantities gadgets say to be equal (`Links`) and between which numbers they say a
quantity to lie (`Ranges`). This module says so of single rules and of the steps of the optimizer:

* an implied range comes from a linked quantity (`Implication.Draws.exists_ranges`), and an implied
  equality from two links (`Implication.Draws.exists_links`);
* a substitution takes no link of two quantities away (`Substitution.Makes.not_links`);
* it takes ranges of a quantity away for a narrower one, or for a link to the number in which two of
  them meet (`Substitution.Makes.covers_or_meets`), and puts in only what two ranges have in common
  (`Substitution.Makes.exists_ranges`).
-/

namespace Attestation

/-- Some gadget says that two quantities are equal. -/
def Links (gadgets : List Gadget) (v w : Identity) : Prop :=
  ∃ e x y, Gadget.equality e ∈ gadgets ∧ e.Joins x y ∧ x.identity = v ∧ y.identity = w

/-- Bounds for a quantity, with known ends. -/
structure Bounds.Spans (b : Bounds) (v : Identity) (lo hi : Int) : Prop where
  value : b.value.identity = v
  min : b.min.integer? = some lo
  max : b.max.integer? = some hi

/-- Some gadget says that a quantity lies between two numbers. -/
def Ranges (gadgets : List Gadget) (v : Identity) (lo hi : Int) : Prop :=
  ∃ b, Gadget.bounds b ∈ gadgets ∧ b.Spans v lo hi

/-- Some gadget says that a quantity lies between two numbers or says more. -/
def Covers (gadgets : List Gadget) (v : Identity) (lo hi : Int) : Prop :=
  ∃ lo' hi', lo ≤ lo' ∧ hi' ≤ hi ∧ Ranges gadgets v lo' hi'

variable {gadgets gs : List Gadget} {v w : Identity} {lo hi : Int}

theorem Equality.Joins.symm {e : Equality} {x y : Variable} (h : e.Joins x y) : e.Joins y x :=
  Or.symm h

theorem Links.symm (h : Links gadgets v w) : Links gadgets w v := by
  obtain ⟨e, x, y, he, hxy, hx, hy⟩ := h
  exact ⟨e, y, x, he, hxy.symm, hy, hx⟩

theorem Links.mono (h : Links gadgets v w) (hsub : gadgets ⊆ gs) : Links gs v w := by
  obtain ⟨e, x, y, he, hxy⟩ := h
  exact ⟨e, x, y, hsub he, hxy⟩

theorem Ranges.mono (h : Ranges gadgets v lo hi) (hsub : gadgets ⊆ gs) : Ranges gs v lo hi := by
  obtain ⟨b, hb, hspans⟩ := h
  exact ⟨b, hsub hb, hspans⟩

theorem Ranges.covers (h : Ranges gadgets v lo hi) : Covers gadgets v lo hi :=
  ⟨lo, hi, Int.le_refl lo, Int.le_refl hi, h⟩

theorem Covers.mono (h : Covers gadgets v lo hi) (hsub : gadgets ⊆ gs) : Covers gs v lo hi := by
  obtain ⟨lo', hi', hlo, hhi, h⟩ := h
  exact ⟨lo', hi', hlo, hhi, h.mono hsub⟩

theorem links_append : Links (gadgets ++ gs) v w ↔ Links gadgets v w ∨ Links gs v w := by
  constructor
  · rintro ⟨e, x, y, he, hxy⟩
    exact (List.mem_append.1 he).imp (fun he => ⟨e, x, y, he, hxy⟩) fun he => ⟨e, x, y, he, hxy⟩
  · rintro (h | h)
    · exact h.mono (List.subset_append_left _ _)
    · exact h.mono (List.subset_append_right _ _)

theorem ranges_append :
    Ranges (gadgets ++ gs) v lo hi ↔ Ranges gadgets v lo hi ∨ Ranges gs v lo hi := by
  constructor
  · rintro ⟨b, hb, hspans⟩
    exact (List.mem_append.1 hb).imp (fun hb => ⟨b, hb, hspans⟩) fun hb => ⟨b, hb, hspans⟩
  · rintro (h | h)
    · exact h.mono (List.subset_append_left _ _)
    · exact h.mono (List.subset_append_right _ _)

theorem ranges_singleton {b : Bounds} : Ranges [.bounds b] v lo hi ↔ b.Spans v lo hi := by
  simp [Ranges]

theorem ranges_pair {a b : Bounds} :
    Ranges [.bounds a, .bounds b] v lo hi ↔ a.Spans v lo hi ∨ b.Spans v lo hi := by
  constructor
  · rintro ⟨c, hc, hspans⟩
    simp only [List.mem_cons, List.not_mem_nil, or_false, Gadget.bounds.injEq] at hc
    rcases hc with rfl | rfl
    · exact .inl hspans
    · exact .inr hspans
  · rintro (h | h)
    · exact ⟨a, List.mem_cons_self, h⟩
    · exact ⟨b, List.mem_cons_of_mem _ List.mem_cons_self, h⟩

theorem Bounds.Spans.unique {b : Bounds} {lo' hi' : Int} (h : b.Spans v lo hi)
    (h' : b.Spans w lo' hi') : lo = lo' ∧ hi = hi' := by
  have hlo : some lo = some lo' := h.min.symm.trans h'.min
  have hhi : some hi = some hi' := h.max.symm.trans h'.max
  exact ⟨Option.some.inj hlo, Option.some.inj hhi⟩

/-! ## Sets of gadgets -/

theorem Variable.integer?_eq_some_iff_identity {x : Variable} {n : Int} :
    x.integer? = some n ↔ x.identity = ⟨.disclosed, .integer n⟩ := by
  rw [Variable.integer?_eq_some_iff, Variable.identity, Identity.mk.injEq]

theorem Gadget.same_equality {g : Gadget} {e : Equality} (h : g.same (.equality e) = true) :
    Links [g] e.left.identity e.right.identity := by
  cases g with
  | equality e' =>
    rcases samePair_iff.1 h with ⟨hl, hr⟩ | ⟨hl, hr⟩
    · exact ⟨e', e'.left, e'.right, List.mem_cons_self, .inl rfl, hl, hr⟩
    · exact ⟨e', e'.right, e'.left, List.mem_cons_self, .inr rfl, hr, hl⟩
  | _ => cases h

theorem Gadget.same_bounds_iff {g : Gadget} {b : Bounds} (hb : b.Spans v lo hi) :
    g.same (.bounds b) = true ↔ ∃ b', g = .bounds b' ∧ b'.Spans v lo hi := by
  cases g with
  | bounds b' =>
    obtain ⟨rfl, hlo, hhi⟩ := hb
    rw [Variable.integer?_eq_some_iff_identity] at hlo hhi
    simp only [Gadget.same, Bounds.same, Bool.and_eq_true, Variable.same_iff, hlo, hhi,
      Gadget.bounds.injEq, exists_eq_left']
    constructor
    · rintro ⟨⟨hv, hmin⟩, hmax⟩
      exact ⟨hv, Variable.integer?_eq_some_iff_identity.2 hmin,
        Variable.integer?_eq_some_iff_identity.2 hmax⟩
    · rintro ⟨hv, hmin, hmax⟩
      exact ⟨⟨hv, Variable.integer?_eq_some_iff_identity.1 hmin⟩,
        Variable.integer?_eq_some_iff_identity.1 hmax⟩
  | _ => simp [Gadget.same]

namespace GadgetSet

variable {set : GadgetSet}

theorem has_equality_iff {e : Equality} :
    set.has (.equality e) = true ↔ Links set e.left.identity e.right.identity := by
  rw [has_iff]
  constructor
  · rintro ⟨g, hg, hsame⟩
    exact (Gadget.same_equality hsame).mono (List.singleton_sublist.2 hg).subset
  · rintro ⟨e', x, y, he', hxy, hx, hy⟩
    refine ⟨_, he', samePair_iff.2 ?_⟩
    rcases hxy with rfl | rfl
    · exact .inl ⟨hx, hy⟩
    · exact .inr ⟨hy, hx⟩

instance : Decidable (Links set v w) :=
  decidable_of_iff
    (set.has (.equality ⟨⟨v.visibility, v.literal, none, none⟩,
      ⟨w.visibility, w.literal, none, none⟩⟩) = true) has_equality_iff

theorem has_bounds_iff {b : Bounds} (hb : b.Spans v lo hi) :
    set.has (.bounds b) = true ↔ Ranges set v lo hi := by
  rw [has_iff]
  constructor
  · rintro ⟨g, hg, hsame⟩
    obtain ⟨b', rfl, hspans⟩ := (Gadget.same_bounds_iff hb).1 hsame
    exact ⟨b', hg, hspans⟩
  · rintro ⟨b', hb', hspans⟩
    exact ⟨_, hb', (Gadget.same_bounds_iff hb).2 ⟨b', rfl, hspans⟩⟩

theorem exists_of_has_inequality {i : Inequality} (h : set.has (.inequality i) = true) :
    ∃ j, .inequality j ∈ set ∧ samePair j.left j.right i.left i.right = true := by
  obtain ⟨g, hg, hsame⟩ := has_iff.1 h
  cases g with
  | inequality j => exact ⟨j, hg, hsame⟩
  | _ => cases hsame

theorem exists_of_has_membership {m : Membership} (h : set.has (.membership m) = true) :
    ∃ m', .membership m' ∈ set ∧ m'.same m = true := by
  obtain ⟨g, hg, hsame⟩ := has_iff.1 h
  cases g with
  | membership m' => exact ⟨m', hg, hsame⟩
  | _ => cases hsame

theorem exists_of_has_mimcHash {a : MimcHash} (h : set.has (.mimcHash a) = true) :
    ∃ a', .mimcHash a' ∈ set ∧ a'.same a = true := by
  obtain ⟨g, hg, hsame⟩ := has_iff.1 h
  cases g with
  | mimcHash a' => exact ⟨a', hg, hsame⟩
  | _ => cases hsame

theorem has_ofList {g : Gadget} (h : g ∈ gs) : (ofList gs).has g = true :=
  has_iff.2 (exists_same_of_mem h)

theorem links_addAll : Links (set.addAll gs) v w ↔ Links set v w ∨ Links gs v w := by
  constructor
  · rintro ⟨e, x, y, he, hxy⟩
    exact (mem_addAll he).imp (fun he => ⟨e, x, y, he, hxy⟩) fun he => ⟨e, x, y, he, hxy⟩
  · rintro (h | ⟨e, x, y, he, hxy, rfl, rfl⟩)
    · exact h.mono fun g hg => subset_addAll hg
    · obtain ⟨k, hk, hsame⟩ : ∃ k ∈ set.addAll gs, k.same (.equality e) = true :=
        exists_same_of_mem he
      have hlinks : Links (set.addAll gs) e.left.identity e.right.identity :=
        (Gadget.same_equality hsame).mono (List.singleton_sublist.2 hk).subset
      rcases hxy with rfl | rfl
      · exact hlinks
      · exact hlinks.symm

theorem ranges_addAll :
    Ranges (set.addAll gs) v lo hi ↔ Ranges set v lo hi ∨ Ranges gs v lo hi := by
  constructor
  · rintro ⟨b, hb, hspans⟩
    exact (mem_addAll hb).imp (fun hb => ⟨b, hb, hspans⟩) fun hb => ⟨b, hb, hspans⟩
  · rintro (h | ⟨b, hb, hspans⟩)
    · exact h.mono fun g hg => subset_addAll hg
    · obtain ⟨k, hk, hsame⟩ : ∃ k ∈ set.addAll gs, k.same (.bounds b) = true :=
        exists_same_of_mem hb
      obtain ⟨b', rfl, hspans'⟩ := (Gadget.same_bounds_iff hspans).1 hsame
      exact ⟨b', hk, hspans'⟩

theorem links_ofList : Links (ofList gs) v w ↔ Links gs v w := by
  refine links_addAll.trans (or_iff_right ?_)
  rintro ⟨e, x, y, he, -⟩
  cases he

theorem ranges_ofList : Ranges (ofList gs) v lo hi ↔ Ranges gs v lo hi := by
  refine ranges_addAll.trans (or_iff_right ?_)
  rintro ⟨b, hb, -⟩
  cases hb

end GadgetSet

/-! ## Rules -/

/-- An implied range is that of a quantity that is said to be equal. -/
theorem Implication.Draws.exists_ranges {matched : List Gadget} {b : Bounds}
    (h : Draws matched (.bounds b)) (hb : b.Spans v lo hi) :
    ∃ u, Links matched u v ∧ Ranges matched u lo hi := by
  generalize hg : Gadget.bounds b = g at h
  cases h with
  | @carry e b' _ _ hperm h =>
    obtain ⟨s, x, hjoins, hs, -, rfl⟩ := Equality.carry?_eq_some h
    cases hg
    refine ⟨b'.value.identity, ⟨e, s, x, hperm.symm.subset List.mem_cons_self, hjoins, hs,
      hb.value⟩, b', hperm.symm.subset (List.mem_cons_of_mem _ List.mem_cons_self), ?_⟩
    exact ⟨rfl, hb.min, hb.max⟩
  | chain hperm h =>
    obtain ⟨_, _, x, y, -, -, -, -, rfl⟩ := Equality.chain?_eq_some h
    cases hg

/-- An implied equality is between different quantities that are said to equal a third. -/
theorem Implication.Draws.exists_links {matched : List Gadget} {e : Equality}
    (h : Draws matched (.equality e)) : e.left.identity ≠ e.right.identity ∧
      ∃ u, Links matched e.left.identity u ∧ Links matched u e.right.identity := by
  generalize hg : Gadget.equality e = g at h
  cases h with
  | carry hperm h =>
    obtain ⟨_, _, -, -, -, rfl⟩ := Equality.carry?_eq_some h
    cases hg
  | @chain a b _ _ hperm h =>
    obtain ⟨s, t, x, y, ha, hb, hst, hne, rfl⟩ := Equality.chain?_eq_some h
    cases hg
    refine ⟨hne, s.identity, ⟨a, x, s, ?_, ha.symm, rfl, rfl⟩, b, t, y, ?_, hb, hst.symm, rfl⟩
    · exact hperm.symm.subset List.mem_cons_self
    · exact hperm.symm.subset (List.mem_cons_of_mem _ List.mem_cons_self)

theorem Bounds.Meet.spans {a b : Bounds} {aMin aMax bMin bMax : Int}
    (h : a.Meet b aMin aMax bMin bMax) :
    a.Spans a.value.identity aMin aMax ∧ b.Spans a.value.identity bMin bMax :=
  ⟨⟨rfl, h.aMin, h.aMax⟩, h.value.symm, h.bMin, h.bMax⟩

namespace Substitution.Makes

variable {matched new : List Gadget}

/-- Two different quantities that are said to be equal stay so: no rule takes their equality. -/
theorem not_links (h : Makes matched new) (hne : v ≠ w) : ¬ Links matched v w := by
  rintro ⟨e, x, y, he, hxy, rfl, rfl⟩
  cases h with
  | point h => simp at he
  | touch hperm h => simp [hperm.mem_iff] at he
  | intersect hperm h => simp [hperm.mem_iff] at he
  | @tautology e' _ h =>
    obtain ⟨hsame, -⟩ := Equality.trivial?_eq_some h
    simp only [List.mem_singleton, Gadget.equality.injEq] at he
    subst he
    simp only [sameOperand, Bool.and_eq_true, Variable.same_iff] at hsame
    rcases hxy with rfl | rfl
    · exact hne hsame.1
    · exact hne hsame.1.symm
  | distinct h => simp at he
  | single h => simp at he

/-- A range that is put in is what two ranges have in common. -/
theorem exists_ranges (h : Makes matched new) (hr : Ranges new v lo hi) :
    ∃ aMin aMax bMin bMax, Ranges matched v aMin aMax ∧ Ranges matched v bMin bMax ∧
      lo = max aMin bMin ∧ hi = min aMax bMax := by
  obtain ⟨c, hc, hspans⟩ := hr
  cases h with
  | point h =>
    obtain ⟨n, -, -, rfl⟩ := Bounds.point?_eq_some h
    simp at hc
  | touch hperm h =>
    obtain ⟨_, _, _, _, -, ⟨-, rfl⟩ | ⟨-, rfl⟩⟩ := Bounds.touch?_eq_some h
    · simp at hc
    · simp at hc
  | @intersect a b _ _ hperm h =>
    obtain ⟨aMin, aMax, bMin, bMax, hmeet, -, -, rfl⟩ := Bounds.intersect?_eq_some h
    obtain rfl := Gadget.bounds.inj (List.mem_singleton.1 hc)
    obtain ⟨hmin, hmax⟩ := ends_of_meet hmeet
    obtain ⟨ha, hb⟩ := hmeet.spans
    have hvalue : a.value.identity = v := hspans.value
    rw [hvalue] at ha hb
    have hlo : some lo = some (max aMin bMin) := hspans.min.symm.trans hmin
    have hhi : some hi = some (min aMax bMax) := hspans.max.symm.trans hmax
    refine ⟨aMin, aMax, bMin, bMax, ?_, ?_, Option.some.inj hlo, Option.some.inj hhi⟩
    · exact ⟨a, hperm.symm.subset List.mem_cons_self, ha⟩
    · exact ⟨b, hperm.symm.subset (List.mem_cons_of_mem _ List.mem_cons_self), hb⟩
  | tautology h =>
    obtain ⟨-, rfl⟩ := Equality.trivial?_eq_some h
    cases hc
  | distinct h =>
    obtain ⟨-, rfl⟩ := Inequality.trivial?_eq_some h
    cases hc
  | single h =>
    obtain ⟨e, -, rfl⟩ := Membership.single?_eq_some h
    simp at hc

/-- What becomes of a range that is taken out: a narrower one is put in, or two ranges of the
quantity meet in a number, which it is then said to equal. -/
theorem covers_or_meets (h : Makes matched new) (hr : Ranges matched v lo hi) :
    Covers new v lo hi ∨ ∃ x p y, Ranges matched v x p ∧ Ranges matched v p y ∧
      (lo = p ∨ hi = p) ∧ Links new v ⟨.disclosed, .integer p⟩ := by
  cases h with
  | @point b _ h =>
    obtain ⟨n, hmin, hmax, rfl⟩ := Bounds.point?_eq_some h
    have hspans := ranges_singleton.1 hr
    have hb : Ranges [.bounds b] v n n := ranges_singleton.2 ⟨hspans.value, hmin, hmax⟩
    have hlo : lo = n := (hspans.unique ⟨hspans.value, hmin, hmax⟩).1
    refine .inr ⟨n, n, n, hb, hb, .inl hlo, _, b.value, b.min, List.mem_cons_self, .inl rfl,
      hspans.value, ?_⟩
    exact Variable.integer?_eq_some_iff_identity.1 hmin
  | @touch a b _ _ hperm h =>
    obtain ⟨aMin, aMax, bMin, bMax, hmeet, hnew⟩ := Bounds.touch?_eq_some h
    obtain ⟨ha, hb⟩ := hmeet.spans
    have hcase : a.value.identity = v ∧ (lo = aMin ∧ hi = aMax ∨ lo = bMin ∧ hi = bMax) := by
      rcases ranges_pair.1 (hr.mono hperm.subset) with hspans | hspans
      · exact ⟨hspans.value, .inl (hspans.unique ha)⟩
      · exact ⟨hmeet.value.trans hspans.value, .inr (hspans.unique hb)⟩
    obtain ⟨hvalue, hends⟩ := hcase
    rw [hvalue] at ha hb
    have ha' : Ranges matched v aMin aMax := (ranges_pair.2 (.inl ha)).mono hperm.symm.subset
    have hb' : Ranges matched v bMin bMax := (ranges_pair.2 (.inr hb)).mono hperm.symm.subset
    rcases hnew with ⟨heq, rfl⟩ | ⟨heq, rfl⟩
    · refine .inr ⟨aMin, aMax, bMax, ha', heq ▸ hb', by omega, _, a.value, a.max,
        List.mem_cons_self, .inl rfl, hvalue, ?_⟩
      exact Variable.integer?_eq_some_iff_identity.1 hmeet.aMax
    · refine .inr ⟨bMin, bMax, aMax, hb', heq ▸ ha', by omega, _, a.value, b.max,
        List.mem_cons_self, .inl rfl, hvalue, ?_⟩
      exact Variable.integer?_eq_some_iff_identity.1 hmeet.bMax
  | @intersect a b _ _ hperm h =>
    obtain ⟨aMin, aMax, bMin, bMax, hmeet, -, -, rfl⟩ := Bounds.intersect?_eq_some h
    obtain ⟨hmin, hmax⟩ := ends_of_meet hmeet
    obtain ⟨ha, hb⟩ := hmeet.spans
    refine .inl ⟨max aMin bMin, min aMax bMax, ?_⟩
    rcases ranges_pair.1 (hr.mono hperm.subset) with hspans | hspans
    · obtain ⟨rfl, rfl⟩ := hspans.unique ha
      exact ⟨by omega, by omega, _, List.mem_cons_self, hspans.value, hmin, hmax⟩
    · obtain ⟨rfl, rfl⟩ := hspans.unique hb
      exact ⟨by omega, by omega, _, List.mem_cons_self, hmeet.value.trans hspans.value, hmin,
        hmax⟩
  | tautology h => simp [Ranges] at hr
  | distinct h => simp [Ranges] at hr
  | single h => simp [Ranges] at hr

end Substitution.Makes

/-! ## Steps -/

namespace OptimizerState

variable {rules : RuleSet} {s t : OptimizerState}

theorem links_grown : Links (s.grown rules).current v w ↔
    Links s.current v w ∨ Links (s.fresh rules) v w :=
  GadgetSet.links_addAll

theorem ranges_grown : Ranges (s.grown rules).current v lo hi ↔
    Ranges s.current v lo hi ∨ Ranges (s.fresh rules) v lo hi :=
  GadgetSet.ranges_addAll

/-- A range that is newly implied is that of a quantity that is said to be equal. -/
theorem exists_ranges_of_fresh (h : Ranges (s.fresh rules) v lo hi) :
    ∃ u, Links s.current u v ∧ Ranges s.current u lo hi := by
  obtain ⟨b, hb, hspans⟩ := h
  obtain ⟨matched, hdraws, hsub⟩ := mem_fresh hb
  obtain ⟨u, hlinks, hranges⟩ := hdraws.exists_ranges hspans
  exact ⟨u, hlinks.mono hsub, hranges.mono hsub⟩

theorem not_ranges_seen_of_fresh (h : Ranges (s.fresh rules) v lo hi) :
    ¬ Ranges s.seen v lo hi := by
  obtain ⟨b, hb, hspans⟩ := h
  have hnew := (List.mem_filter.1 (GadgetSet.mem_ofList hb)).2
  rw [← GadgetSet.has_bounds_iff hspans]
  simpa using hnew

/-- All that the gadgets at hand imply is recorded. -/
theorem links_seen_of_implied {e : Equality}
    (h : Gadget.equality e ∈ rules.implied s.current) :
    Links (s.grown rules).seen e.left.identity e.right.identity := by
  refine GadgetSet.links_addAll.2 ?_
  by_cases hseen : s.seen.has (.equality e) = true
  · exact .inl (GadgetSet.has_equality_iff.1 hseen)
  · refine .inr (GadgetSet.links_ofList.2 ?_)
    exact ⟨e, e.left, e.right, List.mem_filter.2 ⟨h, by simpa using hseen⟩, .inl rfl, rfl, rfl⟩

theorem ranges_seen_of_implied {b : Bounds} (h : Gadget.bounds b ∈ rules.implied s.current)
    (hb : b.Spans v lo hi) : Ranges (s.grown rules).seen v lo hi := by
  refine GadgetSet.ranges_addAll.2 ?_
  by_cases hseen : s.seen.has (.bounds b) = true
  · exact .inl ((GadgetSet.has_bounds_iff hb).1 hseen)
  · exact .inr (GadgetSet.ranges_ofList.2 ⟨b, List.mem_filter.2 ⟨h, by simpa using hseen⟩, hb⟩)

theorem links_substitute? (h : s.substitute? rules = some t) (hne : v ≠ w)
    (hl : Links s.current v w) : Links t.current v w := by
  obtain ⟨matched, new, others, hmakes, hperm, rfl⟩ := substitute?_eq_some h
  rcases links_append.1 (hl.mono hperm.subset) with hl | hl
  · exact absurd hl (hmakes.not_links hne)
  · exact GadgetSet.links_addAll.2 (.inl hl)

/-- What becomes of a range in a substitution. -/
theorem covers_or_meets_of_substitute? (h : s.substitute? rules = some t)
    (hr : Ranges s.current v lo hi) :
    Covers t.current v lo hi ∨ ∃ x p y, Ranges s.current v x p ∧ Ranges s.current v p y ∧
      (lo = p ∨ hi = p) ∧ Links t.current v ⟨.disclosed, .integer p⟩ := by
  obtain ⟨matched, new, others, hmakes, hperm, rfl⟩ := substitute?_eq_some h
  have hmatched : matched ⊆ s.current := fun m hm => hperm.symm.subset (List.mem_append_left _ hm)
  rcases ranges_append.1 (hr.mono hperm.subset) with hr | hr
  · rcases hmakes.covers_or_meets hr with ⟨lo', hi', hlo, hhi, hnew⟩ | ⟨x, p, y, hx, hy, hp, hlink⟩
    · exact .inl ⟨lo', hi', hlo, hhi, GadgetSet.ranges_addAll.2 (.inr hnew)⟩
    · exact .inr ⟨x, p, y, hx.mono hmatched, hy.mono hmatched, hp,
        GadgetSet.links_addAll.2 (.inr hlink)⟩
  · exact .inl (Ranges.covers (GadgetSet.ranges_addAll.2 (.inl hr)))

/-- Where a range comes from after a substitution. -/
theorem exists_ranges_of_substitute? (h : s.substitute? rules = some t)
    (hr : Ranges t.current v lo hi) :
    ∃ aMin aMax bMin bMax, Ranges s.current v aMin aMax ∧ Ranges s.current v bMin bMax ∧
      lo = max aMin bMin ∧ hi = min aMax bMax := by
  obtain ⟨matched, new, others, hmakes, hperm, rfl⟩ := substitute?_eq_some h
  have hmatched : matched ⊆ s.current := fun m hm => hperm.symm.subset (List.mem_append_left _ hm)
  have hothers : others ⊆ s.current := fun m hm => hperm.symm.subset (List.mem_append_right _ hm)
  rcases GadgetSet.ranges_addAll.1 hr with hr | hr
  · have hs := hr.mono hothers
    exact ⟨lo, hi, lo, hi, hs, hs, (Int.max_self lo).symm, (Int.min_self hi).symm⟩
  · obtain ⟨aMin, aMax, bMin, bMax, ha, hb, hlo, hhi⟩ := hmakes.exists_ranges hr
    exact ⟨aMin, aMax, bMin, bMax, ha.mono hmatched, hb.mono hmatched, hlo, hhi⟩

/-- What is recorded after a substitution was recorded before or is at hand. -/
theorem links_seen_of_substitute? (h : s.substitute? rules = some t) (hl : Links t.seen v w) :
    Links s.seen v w ∨ Links t.current v w := by
  obtain ⟨matched, new, others, -, -, rfl⟩ := substitute?_eq_some h
  exact (GadgetSet.links_addAll.1 hl).imp_right fun hl => GadgetSet.links_addAll.2 (.inr hl)

theorem ranges_seen_of_substitute? (h : s.substitute? rules = some t)
    (hr : Ranges t.seen v lo hi) : Ranges s.seen v lo hi ∨ Ranges t.current v lo hi := by
  obtain ⟨matched, new, others, -, -, rfl⟩ := substitute?_eq_some h
  exact (GadgetSet.ranges_addAll.1 hr).imp_right fun hr => GadgetSet.ranges_addAll.2 (.inr hr)

/-- What was recorded stays so. -/
theorem seen_subset_of_substitute? (h : s.substitute? rules = some t) : s.seen ⊆ t.seen := by
  obtain ⟨matched, new, others, -, -, rfl⟩ := substitute?_eq_some h
  exact fun g hg => GadgetSet.subset_addAll hg

end OptimizerState

end Attestation
