import Attestation.Proofs.Contract
import Attestation.Proofs.Matching

/-!
# What rules put in

Implications and substitutions build gadgets from pieces of the gadgets they match, without checking
them again. This module says once what each rule applies to (`Contradiction.Finds`,
`Implication.Draws`, `Substitution.Makes`) and what it builds, and derives what every gadget they
build inherits:

* its variables are variables of the gadgets it came from (`Implication.Draws.vars`,
  `Substitution.Makes.vars`);
* it meets its contract if they do (`Implication.Draws.check`, `Substitution.Makes.check`).
-/

namespace Attestation

/-! ## The rules by kind of gadget -/

/-- The contradictions that gadgets can be in. -/
inductive Contradiction.Finds : List Gadget → Diagnostic → Prop
  | empty {b : Bounds} {error : Diagnostic} (h : b.empty? = some error) : Finds [.bounds b] error
  | disjoint {a b : Bounds} {matched : List Gadget} {error : Diagnostic}
    (hperm : matched.Perm [.bounds a, .bounds b]) (h : a.disjoint? b = some error) :
    Finds matched error
  | unequal {e : Equality} {error : Diagnostic} (h : e.unequal? = some error) :
    Finds [.equality e] error
  | reflexive {i : Inequality} {error : Diagnostic} (h : i.reflexive? = some error) :
    Finds [.inequality i] error
  | denied {e : Equality} {i : Inequality} {matched : List Gadget} {error : Diagnostic}
    (hperm : matched.Perm [.equality e, .inequality i]) (h : e.denied? i = some error) :
    Finds matched error
  | excluded {m : Membership} {error : Diagnostic} (h : m.excluded? = some error) :
    Finds [.membership m] error
  | ambiguous {a b : MimcHash} {matched : List Gadget} {error : Diagnostic}
    (hperm : matched.Perm [.mimcHash a, .mimcHash b]) (h : a.ambiguous? b = some error) :
    Finds matched error

/-- What gadgets imply. -/
inductive Implication.Draws : List Gadget → Gadget → Prop
  | carry {e : Equality} {b : Bounds} {matched : List Gadget} {g : Gadget}
    (hperm : matched.Perm [.equality e, .bounds b]) (h : e.carry? b = some g) : Draws matched g
  | chain {a b : Equality} {matched : List Gadget} {g : Gadget}
    (hperm : matched.Perm [.equality a, .equality b]) (h : a.chain? b = some g) : Draws matched g

/-- What gadgets are replaced by. -/
inductive Substitution.Makes : List Gadget → List Gadget → Prop
  | point {b : Bounds} {new : List Gadget} (h : b.point? = some new) : Makes [.bounds b] new
  | touch {a b : Bounds} {matched new : List Gadget} (hperm : matched.Perm [.bounds a, .bounds b])
    (h : a.touch? b = some new) : Makes matched new
  | intersect {a b : Bounds} {matched new : List Gadget}
    (hperm : matched.Perm [.bounds a, .bounds b]) (h : a.intersect? b = some new) :
    Makes matched new
  | tautology {e : Equality} {new : List Gadget} (h : e.trivial? = some new) :
    Makes [.equality e] new
  | distinct {i : Inequality} {new : List Gadget} (h : i.trivial? = some new) :
    Makes [.inequality i] new
  | single {m : Membership} {new : List Gadget} (h : m.single? = some new) :
    Makes [.membership m] new

theorem Contradiction.finds_of_says {rule : Contradiction} {matched : List Gadget}
    {error : Diagnostic} (h : rule.pattern.Says matched error) : Finds matched error := by
  cases rule with
  | emptyRange =>
    obtain ⟨g, b, rfl, hg, h⟩ := Pattern.says_one h
    exact Gadget.bounds?_eq_some_iff.1 hg ▸ .empty h
  | disjointRanges =>
    obtain ⟨x, y, a, b, hperm, hx, hy, h⟩ := Pattern.says_two h
    rw [Gadget.bounds?_eq_some_iff.1 hx, Gadget.bounds?_eq_some_iff.1 hy] at hperm
    exact .disjoint hperm h
  | unequalValues =>
    obtain ⟨g, e, rfl, hg, h⟩ := Pattern.says_one h
    exact Gadget.equality?_eq_some_iff.1 hg ▸ .unequal h
  | selfInequality =>
    obtain ⟨g, i, rfl, hg, h⟩ := Pattern.says_one h
    exact Gadget.inequality?_eq_some_iff.1 hg ▸ .reflexive h
  | equalAndUnequal =>
    obtain ⟨x, y, e, i, hperm, hx, hy, h⟩ := Pattern.says_two h
    rw [Gadget.equality?_eq_some_iff.1 hx, Gadget.inequality?_eq_some_iff.1 hy] at hperm
    exact .denied hperm h
  | nonMember =>
    obtain ⟨g, m, rfl, hg, h⟩ := Pattern.says_one h
    exact Gadget.membership?_eq_some_iff.1 hg ▸ .excluded h
  | conflictingImages =>
    obtain ⟨x, y, a, b, hperm, hx, hy, h⟩ := Pattern.says_two h
    rw [Gadget.mimcHash?_eq_some_iff.1 hx, Gadget.mimcHash?_eq_some_iff.1 hy] at hperm
    exact .ambiguous hperm h

theorem Implication.draws_of_says {rule : Implication} {matched : List Gadget} {g : Gadget}
    (h : rule.pattern.Says matched g) : Draws matched g := by
  cases rule with
  | boundsOverEquality =>
    obtain ⟨x, y, e, b, hperm, hx, hy, h⟩ := Pattern.says_two h
    rw [Gadget.equality?_eq_some_iff.1 hx, Gadget.bounds?_eq_some_iff.1 hy] at hperm
    exact .carry hperm h
  | transitivity =>
    obtain ⟨x, y, a, b, hperm, hx, hy, h⟩ := Pattern.says_two h
    rw [Gadget.equality?_eq_some_iff.1 hx, Gadget.equality?_eq_some_iff.1 hy] at hperm
    exact .chain hperm h

theorem Substitution.makes_of_says {rule : Substitution} {matched new : List Gadget}
    (h : rule.pattern.Says matched new) : Makes matched new := by
  cases rule with
  | pointRange =>
    obtain ⟨g, b, rfl, hg, h⟩ := Pattern.says_one h
    exact Gadget.bounds?_eq_some_iff.1 hg ▸ .point h
  | sharedBoundary =>
    obtain ⟨x, y, a, b, hperm, hx, hy, h⟩ := Pattern.says_two h
    rw [Gadget.bounds?_eq_some_iff.1 hx, Gadget.bounds?_eq_some_iff.1 hy] at hperm
    exact .touch hperm h
  | rangeIntersection =>
    obtain ⟨x, y, a, b, hperm, hx, hy, h⟩ := Pattern.says_two h
    rw [Gadget.bounds?_eq_some_iff.1 hx, Gadget.bounds?_eq_some_iff.1 hy] at hperm
    exact .intersect hperm h
  | tautology =>
    obtain ⟨g, e, rfl, hg, h⟩ := Pattern.says_one h
    exact Gadget.equality?_eq_some_iff.1 hg ▸ .tautology h
  | distinctValues =>
    obtain ⟨g, i, rfl, hg, h⟩ := Pattern.says_one h
    exact Gadget.inequality?_eq_some_iff.1 hg ▸ .distinct h
  | singleElement =>
    obtain ⟨g, m, rfl, hg, h⟩ := Pattern.says_one h
    exact Gadget.membership?_eq_some_iff.1 hg ▸ .single h

/-! ## When a contradiction is found -/

theorem Equality.exists_unequal?_iff {e : Equality} :
    (∃ error, e.unequal? = some error) ↔ distinctKnown e.left e.right = true := by
  simp [Equality.unequal?]

theorem Inequality.exists_reflexive?_iff {i : Inequality} :
    (∃ error, i.reflexive? = some error) ↔ sameOperand i.left i.right = true := by
  simp [Inequality.reflexive?]

theorem Equality.exists_denied?_iff {e : Equality} {i : Inequality} :
    (∃ error, e.denied? i = some error) ↔
      samePair e.left e.right i.left i.right = true := by
  simp [Equality.denied?]

theorem Membership.exists_excluded?_iff {m : Membership} :
    (∃ error, m.excluded? = some error) ↔ m.member.visibility = .disclosed ∧
      m.member.literal.isSealed = false ∧ m.hasElement m.member = false := by
  simp [Membership.excluded?, Variable.isDisclosed_iff, and_assoc]

theorem MimcHash.exists_ambiguous?_iff {a b : MimcHash} :
    (∃ error, a.ambiguous? b = some error) ↔
      a.preimage.identity = b.preimage.identity ∧ distinctKnown a.image b.image = true := by
  simp [MimcHash.ambiguous?, Variable.same_iff]

/-! ## The results of implications -/

namespace Equality

/-- The sides of an equality, in one order or the other. -/
def Joins (e : Equality) (v w : Variable) : Prop :=
  e = ⟨v, w⟩ ∨ e = ⟨w, v⟩

theorem Joins.type_eq {e : Equality} {v w : Variable} (h : e.Joins v w) (he : e.check = .ok ()) :
    v.type = w.type := by
  rw [check_eq_ok_iff] at he
  rcases h with rfl | rfl
  · exact he
  · exact he.symm

theorem Joins.mem_vars {e : Equality} {v w : Variable} (h : e.Joins v w) :
    w ∈ (Gadget.equality e).vars := by
  rcases h with rfl | rfl <;> simp [Gadget.vars]

theorem counterpart?_eq_some {e : Equality} {v w : Variable} (h : e.counterpart? v = some w) :
    ∃ s, e.Joins s w ∧ s.identity = v.identity := by
  unfold counterpart? at h
  split_ifs at h with hl hr
  · cases h
    exact ⟨e.left, .inl rfl, (Variable.same_iff _ _).1 hl⟩
  · cases h
    exact ⟨e.right, .inr rfl, (Variable.same_iff _ _).1 hr⟩

theorem outer?_eq_some {a b : Equality} {x y : Variable} (h : a.outer? b = some (x, y)) :
    ∃ s t, a.Joins s x ∧ b.Joins t y ∧ s.identity = t.identity := by
  unfold outer? at h
  split at h
  case h_1 other hother =>
    obtain ⟨t, hb, ht⟩ := counterpart?_eq_some hother
    cases h
    exact ⟨a.left, t, .inl rfl, hb, ht.symm⟩
  case h_2 =>
    obtain ⟨other, hother, h⟩ := Option.map_eq_some_iff.1 h
    obtain ⟨t, hb, ht⟩ := counterpart?_eq_some hother
    cases h
    exact ⟨a.right, t, .inr rfl, hb, ht.symm⟩

theorem carry?_eq_some {e : Equality} {b : Bounds} {g : Gadget} (h : e.carry? b = some g) :
    ∃ s w, e.Joins s w ∧ s.identity = b.value.identity ∧ w.visibility = .witness ∧
      g = .bounds ⟨w, b.min, b.max⟩ := by
  unfold carry? at h
  obtain ⟨w, hw, h⟩ := Option.bind_eq_some_iff.1 h
  obtain ⟨s, he, hs⟩ := counterpart?_eq_some hw
  split_ifs at h with hif
  simp only [Bool.and_eq_true, Variable.isWitness_iff] at hif
  cases h
  exact ⟨s, w, he, hs, hif.1, rfl⟩

theorem chain?_eq_some {a b : Equality} {g : Gadget} (h : a.chain? b = some g) :
    ∃ s t x y, a.Joins s x ∧ b.Joins t y ∧ s.identity = t.identity ∧ x.identity ≠ y.identity ∧
      g = .equality ⟨x, y⟩ := by
  unfold chain? at h
  obtain ⟨⟨x, y⟩, hxy, h⟩ := Option.bind_eq_some_iff.1 h
  obtain ⟨s, t, ha, hb, hst⟩ := outer?_eq_some hxy
  dsimp only at h
  split_ifs at h with hif
  cases h
  exact ⟨s, t, x, y, ha, hb, hst, fun hne => hif ((Variable.same_iff x y).2 hne), rfl⟩

end Equality

/-! ## The results of substitutions -/

namespace Bounds

theorem point?_eq_some {g : Bounds} {new : List Gadget} (h : g.point? = some new) :
    ∃ n, g.min.integer? = some n ∧ g.max.integer? = some n ∧
      new = [.equality ⟨g.value, g.min⟩] := by
  unfold point? at h
  obtain ⟨⟨lo, hi⟩, hr, h⟩ := Option.bind_eq_some_iff.1 h
  obtain ⟨hlo, hhi⟩ := range?_eq_some_iff.1 hr
  dsimp only at h
  split_ifs at h with heq
  cases h
  exact ⟨lo, hlo, heq ▸ hhi, rfl⟩

/-- Two ranges for the same quantity, all four ends known. -/
structure Meet (a b : Bounds) (aMin aMax bMin bMax : Int) : Prop where
  value : a.value.identity = b.value.identity
  aMin : a.min.integer? = some aMin
  aMax : a.max.integer? = some aMax
  bMin : b.min.integer? = some bMin
  bMax : b.max.integer? = some bMax

namespace Meet

variable {a b : Bounds} {aMin aMax bMin bMax : Int}

theorem symm (h : a.Meet b aMin aMax bMin bMax) : b.Meet a bMin bMax aMin aMax :=
  ⟨h.value.symm, h.bMin, h.bMax, h.aMin, h.aMax⟩

theorem same (h : a.Meet b aMin aMax bMin bMax) : a.value.same b.value = true :=
  (Variable.same_iff _ _).2 h.value

theorem range? (h : a.Meet b aMin aMax bMin bMax) :
    a.range? = some (aMin, aMax) ∧ b.range? = some (bMin, bMax) :=
  ⟨range?_eq_some_iff.2 ⟨h.aMin, h.aMax⟩, range?_eq_some_iff.2 ⟨h.bMin, h.bMax⟩⟩

end Meet

/-- Ranges for one quantity are apart if one ends before the other starts. -/
theorem exists_disjoint?_iff {a b : Bounds} : (∃ error, a.disjoint? b = some error) ↔
    ∃ aMin aMax bMin bMax, Meet a b aMin aMax bMin bMax ∧ (aMax < bMin ∨ bMax < aMin) := by
  constructor
  · rintro ⟨error, h⟩
    unfold disjoint? at h
    split_ifs at h with hv
    split at h
    case h_1 aMin aMax bMin bMax ha hb =>
      obtain ⟨ha₁, ha₂⟩ := range?_eq_some_iff.1 ha
      obtain ⟨hb₁, hb₂⟩ := range?_eq_some_iff.1 hb
      refine ⟨aMin, aMax, bMin, bMax, ⟨(Variable.same_iff _ _).1 hv, ha₁, ha₂, hb₁, hb₂⟩, ?_⟩
      split_ifs at h with h₁ h₂
      · exact .inl h₁
      · exact .inr h₂
    case h_2 => cases h
  · rintro ⟨aMin, aMax, bMin, bMax, hmeet, hapart⟩
    obtain ⟨ha, hb⟩ := hmeet.range?
    simp only [disjoint?, hmeet.same, ha, hb, if_true]
    split_ifs with h₁ h₂
    · exact ⟨_, rfl⟩
    · exact ⟨_, rfl⟩
    · omega

theorem touch?_eq_some {a b : Bounds} {new : List Gadget} (h : a.touch? b = some new) :
    ∃ aMin aMax bMin bMax, Meet a b aMin aMax bMin bMax ∧
      ((aMax = bMin ∧ new = [.equality ⟨a.value, a.max⟩]) ∨
        (bMax = aMin ∧ new = [.equality ⟨a.value, b.max⟩])) := by
  unfold touch? at h
  split_ifs at h with hv
  obtain ⟨⟨aMin, aMax⟩, ha, h⟩ := Option.bind_eq_some_iff.1 h
  obtain ⟨⟨bMin, bMax⟩, hb, h⟩ := Option.bind_eq_some_iff.1 h
  obtain ⟨ha₁, ha₂⟩ := range?_eq_some_iff.1 ha
  obtain ⟨hb₁, hb₂⟩ := range?_eq_some_iff.1 hb
  refine ⟨aMin, aMax, bMin, bMax, ⟨(Variable.same_iff _ _).1 hv, ha₁, ha₂, hb₁, hb₂⟩, ?_⟩
  dsimp only at h
  split_ifs at h with h₁ h₂
  · cases h
    exact .inl ⟨h₁, rfl⟩
  · cases h
    exact .inr ⟨h₂, rfl⟩

/-- Ranges for one quantity meet if one ends where the other starts. -/
theorem exists_touch?_iff {a b : Bounds} : (∃ new, a.touch? b = some new) ↔
    ∃ aMin aMax bMin bMax, Meet a b aMin aMax bMin bMax ∧ (aMax = bMin ∨ bMax = aMin) := by
  constructor
  · rintro ⟨new, h⟩
    obtain ⟨aMin, aMax, bMin, bMax, hmeet, hnew⟩ := touch?_eq_some h
    exact ⟨aMin, aMax, bMin, bMax, hmeet, hnew.imp And.left And.left⟩
  · rintro ⟨aMin, aMax, bMin, bMax, hmeet, hends⟩
    obtain ⟨ha, hb⟩ := hmeet.range?
    by_cases h : aMax = bMin
    · exact ⟨[.equality ⟨a.value, a.max⟩], by simp [touch?, hmeet.same, ha, hb, h]⟩
    · exact ⟨[.equality ⟨a.value, b.max⟩],
        by simp [touch?, hmeet.same, ha, hb, h, hends.resolve_left h]⟩

theorem intersect?_eq_some {a b : Bounds} {new : List Gadget} (h : a.intersect? b = some new) :
    ∃ aMin aMax bMin bMax, Meet a b aMin aMax bMin bMax ∧ bMin ≤ aMax ∧ aMin ≤ bMax ∧
      new = [.bounds ⟨a.value, if bMin ≤ aMin then a.min else b.min,
        if aMax ≤ bMax then a.max else b.max⟩] := by
  unfold intersect? at h
  split_ifs at h with hv
  obtain ⟨⟨aMin, aMax⟩, ha, h⟩ := Option.bind_eq_some_iff.1 h
  obtain ⟨⟨bMin, bMax⟩, hb, h⟩ := Option.bind_eq_some_iff.1 h
  obtain ⟨ha₁, ha₂⟩ := range?_eq_some_iff.1 ha
  obtain ⟨hb₁, hb₂⟩ := range?_eq_some_iff.1 hb
  refine ⟨aMin, aMax, bMin, bMax, ⟨(Variable.same_iff _ _).1 hv, ha₁, ha₂, hb₁, hb₂⟩, ?_⟩
  dsimp only at h
  by_cases hdis : aMax < bMin ∨ bMax < aMin
  · rw [if_pos hdis] at h
    cases h
  · rw [if_neg hdis] at h
    simp only [not_or, Int.not_lt] at hdis
    cases h
    exact ⟨hdis.1, hdis.2, rfl⟩

/-- Ranges for one quantity overlap if neither ends before the other starts. -/
theorem exists_intersect?_iff {a b : Bounds} : (∃ new, a.intersect? b = some new) ↔
    ∃ aMin aMax bMin bMax, Meet a b aMin aMax bMin bMax ∧ bMin ≤ aMax ∧ aMin ≤ bMax := by
  constructor
  · rintro ⟨new, h⟩
    obtain ⟨aMin, aMax, bMin, bMax, hmeet, h₁, h₂, -⟩ := intersect?_eq_some h
    exact ⟨aMin, aMax, bMin, bMax, hmeet, h₁, h₂⟩
  · rintro ⟨aMin, aMax, bMin, bMax, hmeet, h₁, h₂⟩
    obtain ⟨ha, hb⟩ := hmeet.range?
    have hnot : ¬ (aMax < bMin ∨ bMax < aMin) := by omega
    exact ⟨_, by simp only [intersect?, hmeet.same, ha, hb, if_true, Option.bind_eq_bind,
      Option.bind_some, if_neg hnot]; rfl⟩

end Bounds

/-- The ends of an intersection. -/
theorem ends_of_meet {a b : Bounds} {aMin aMax bMin bMax : Int}
    (h : a.Meet b aMin aMax bMin bMax) :
    (if bMin ≤ aMin then a.min else b.min).integer? = some (max aMin bMin) ∧
      (if aMax ≤ bMax then a.max else b.max).integer? = some (min aMax bMax) := by
  constructor
  · split_ifs with hle
    · rw [h.aMin, Int.max_eq_left hle]
    · rw [h.bMin, Int.max_eq_right (by omega)]
  · split_ifs with hle
    · rw [h.aMax, Int.min_eq_left hle]
    · rw [h.bMax, Int.min_eq_right (by omega)]

theorem Membership.single?_eq_some {g : Membership} {new : List Gadget} (h : g.single? = some new) :
    ∃ e, g.set = [e] ∧ new = [.equality ⟨g.member, e⟩] := by
  unfold Membership.single? at h
  split at h
  case h_1 e he => exact ⟨e, he, by simpa using h.symm⟩
  case h_2 => cases h

theorem Equality.trivial?_eq_some {g : Equality} {new : List Gadget} (h : g.trivial? = some new) :
    sameOperand g.left g.right = true ∧ new = [] := by
  unfold Equality.trivial? at h
  split_ifs at h with hs
  exact ⟨hs, by simpa using h.symm⟩

theorem Inequality.trivial?_eq_some {g : Inequality} {new : List Gadget}
    (h : g.trivial? = some new) : distinctKnown g.left g.right = true ∧ new = [] := by
  unfold Inequality.trivial? at h
  split_ifs at h with hs
  exact ⟨hs, by simpa using h.symm⟩

/-! ## What results inherit -/

/-- The variables of a gadget that an implication adds are variables of the gadgets it matches. -/
theorem Implication.Draws.vars {matched : List Gadget} {g : Gadget} (h : Draws matched g) :
    ∀ v ∈ g.vars, ∃ m ∈ matched, v ∈ m.vars := by
  cases h with
  | carry hperm h =>
    obtain ⟨s, w, he, -, -, rfl⟩ := Equality.carry?_eq_some h
    intro v hv
    simp only [Gadget.vars, List.mem_cons, List.not_mem_nil, or_false] at hv
    rcases hv with rfl | hv
    · exact ⟨_, hperm.symm.subset List.mem_cons_self, he.mem_vars⟩
    · exact ⟨_, hperm.symm.subset (List.mem_cons_of_mem _ List.mem_cons_self),
        List.mem_cons_of_mem _ (by simpa using hv)⟩
  | chain hperm h =>
    obtain ⟨s, t, x, y, ha, hb, -, -, rfl⟩ := Equality.chain?_eq_some h
    intro v hv
    simp only [Gadget.vars, List.mem_cons, List.not_mem_nil, or_false] at hv
    rcases hv with rfl | rfl
    · exact ⟨_, hperm.symm.subset List.mem_cons_self, ha.mem_vars⟩
    · exact ⟨_, hperm.symm.subset (List.mem_cons_of_mem _ List.mem_cons_self), hb.mem_vars⟩

/-- The variables of gadgets that a substitution puts in are variables of the gadgets it takes
out. -/
theorem Substitution.Makes.vars {matched new : List Gadget} (h : Makes matched new) :
    ∀ g ∈ new, ∀ v ∈ g.vars, ∃ m ∈ matched, v ∈ m.vars := by
  cases h with
  | point h =>
    obtain ⟨n, -, -, rfl⟩ := Bounds.point?_eq_some h
    simp [Gadget.vars]
  | touch hperm h =>
    obtain ⟨_, _, _, _, -, ⟨-, rfl⟩ | ⟨-, rfl⟩⟩ := Bounds.touch?_eq_some h <;>
      simp [Gadget.vars, hperm.mem_iff]
  | intersect hperm h =>
    obtain ⟨_, _, _, _, -, -, -, rfl⟩ := Bounds.intersect?_eq_some h
    simp only [forall_eq, Gadget.vars, List.mem_cons, List.not_mem_nil, or_false, hperm.mem_iff,
      exists_eq_or_imp, exists_eq_left]
    rintro v (rfl | rfl | rfl)
    · exact .inl (.inl rfl)
    · split_ifs
      · exact .inl (.inr (.inl rfl))
      · exact .inr (.inr (.inl rfl))
    · split_ifs
      · exact .inl (.inr (.inr rfl))
      · exact .inr (.inr (.inr rfl))
  | tautology h =>
    obtain ⟨-, rfl⟩ := Equality.trivial?_eq_some h
    simp
  | distinct h =>
    obtain ⟨-, rfl⟩ := Inequality.trivial?_eq_some h
    simp
  | single h =>
    obtain ⟨e, he, rfl⟩ := Membership.single?_eq_some h
    simp [Gadget.vars, he]

/-- A gadget that an implication adds meets its contract if the gadgets it matches do. -/
theorem Implication.Draws.check {matched : List Gadget} {g : Gadget} (h : Draws matched g)
    (hm : ∀ m ∈ matched, m.check = .ok ()) : g.check = .ok () := by
  cases h with
  | @carry e b _ _ hperm h =>
    obtain ⟨s, w, he, hs, hw, rfl⟩ := Equality.carry?_eq_some h
    have hb : b.Valid := Bounds.check_eq_ok_iff.1
      (hm (.bounds b) (hperm.symm.subset (List.mem_cons_of_mem _ List.mem_cons_self)))
    have ht := he.type_eq (hm (.equality e) (hperm.symm.subset List.mem_cons_self))
    refine Bounds.check_eq_ok_iff.2 ⟨hw, ?_, hb.range⟩
    calc w.type = s.type := ht.symm
      _ = b.value.type := Variable.type_eq_of_identity_eq hs
      _ = .integer := hb.integer
  | @chain a b _ _ hperm h =>
    obtain ⟨s, t, x, y, ha, hb, hst, -, rfl⟩ := Equality.chain?_eq_some h
    have hx := ha.type_eq (hm (.equality a) (hperm.symm.subset List.mem_cons_self))
    have hy := hb.type_eq
      (hm (.equality b) (hperm.symm.subset (List.mem_cons_of_mem _ List.mem_cons_self)))
    refine Equality.check_eq_ok_iff.2 ?_
    calc x.type = s.type := hx.symm
      _ = t.type := Variable.type_eq_of_identity_eq hst
      _ = y.type := hy

/-- Gadgets that a substitution puts in meet their contracts if those it takes out do. -/
theorem Substitution.Makes.check {matched new : List Gadget} (h : Makes matched new)
    (hm : ∀ m ∈ matched, m.check = .ok ()) : ∀ g ∈ new, g.check = .ok () := by
  cases h with
  | @point b _ h =>
    obtain ⟨n, hn, -, rfl⟩ := Bounds.point?_eq_some h
    have hb : b.Valid := Bounds.check_eq_ok_iff.1 (hm (.bounds b) List.mem_cons_self)
    simp only [List.mem_singleton, forall_eq]
    exact Equality.check_eq_ok_iff.2 (hb.integer.trans (Variable.type_eq_of_integer? hn).symm)
  | @touch a b _ _ hperm h =>
    have ha : a.Valid := Bounds.check_eq_ok_iff.1
      (hm (.bounds a) (hperm.symm.subset List.mem_cons_self))
    obtain ⟨_, _, _, _, hmeet, ⟨-, rfl⟩ | ⟨-, rfl⟩⟩ := Bounds.touch?_eq_some h
    · simp only [List.mem_singleton, forall_eq]
      exact Equality.check_eq_ok_iff.2
        (ha.integer.trans (Variable.type_eq_of_integer? hmeet.aMax).symm)
    · simp only [List.mem_singleton, forall_eq]
      exact Equality.check_eq_ok_iff.2
        (ha.integer.trans (Variable.type_eq_of_integer? hmeet.bMax).symm)
  | @intersect a b _ _ hperm h =>
    have ha : a.Valid := Bounds.check_eq_ok_iff.1
      (hm (.bounds a) (hperm.symm.subset List.mem_cons_self))
    have hb : b.Valid := Bounds.check_eq_ok_iff.1
      (hm (.bounds b) (hperm.symm.subset (List.mem_cons_of_mem _ List.mem_cons_self)))
    obtain ⟨aMin, aMax, bMin, bMax, hmeet, h₁, h₂, rfl⟩ := Bounds.intersect?_eq_some h
    obtain ⟨lo, hi, hlo, hhi, ha₀, ha₁, ha₂⟩ := ha.range
    obtain ⟨lo', hi', hlo', hhi', hb₀, hb₁, hb₂⟩ := hb.range
    rw [hmeet.aMin] at hlo
    rw [hmeet.aMax] at hhi
    rw [hmeet.bMin] at hlo'
    rw [hmeet.bMax] at hhi'
    cases hlo; cases hhi; cases hlo'; cases hhi'
    obtain ⟨hmin, hmax⟩ := ends_of_meet hmeet
    simp only [List.mem_singleton, forall_eq]
    -- the intersection is not empty: either range reaches into the other
    exact Bounds.check_eq_ok_iff.2 ⟨ha.witness, ha.integer, _, _, hmin, hmax,
      by omega, by omega, by omega⟩
  | tautology h =>
    obtain ⟨-, rfl⟩ := Equality.trivial?_eq_some h
    simp
  | distinct h =>
    obtain ⟨-, rfl⟩ := Inequality.trivial?_eq_some h
    simp
  | @single m _ h =>
    obtain ⟨e, he, rfl⟩ := Membership.single?_eq_some h
    have hv : m.Valid := Membership.check_eq_ok_iff.1 (hm (.membership m) List.mem_cons_self)
    simp only [List.mem_singleton, forall_eq]
    exact Equality.check_eq_ok_iff.2 (hv.type_eq e (by simp [he]))

end Attestation
