import Attestation.Proofs.Exhaustion

/-!
# Gadgets that stay

A substitution takes out bounds, equalities of something with itself, inequalities of different
known values and memberships in sets of one element. All other gadgets last (`Gadget.lasts`): what
was at hand once is in the result, as it is or as a gadget that is the same
(`Optimizer.has_of_optimize`). A membership in a set of one element ends as an equality
(`Optimizer.links_of_single`).

On the other hand rules build only equalities and bounds. Gadgets of any other kind were there from
the start (`KeptByRules.given`).
-/

namespace Attestation

/-- Whether a gadget is none that a substitution takes out. -/
def Gadget.lasts : Gadget → Bool
  | equality g => !sameOperand g.left g.right
  | inequality g => !distinctKnown g.left g.right
  | bounds _ => false
  | membership g => g.set.length != 1
  | mimcHash _ => true
  | merkleTree _ => true

/-- Whether a gadget is of a kind that no rule builds. -/
def Gadget.isGiven : Gadget → Bool
  | equality _ => false
  | bounds _ => false
  | _ => true

theorem Gadget.lasts_eq_of_same {g h : Gadget} (hs : g.same h = true) : g.lasts = h.lasts := by
  cases g <;> cases h <;> simp only [Gadget.same, Bool.false_eq_true] at hs
  case equality.equality a b => simp only [lasts, sameOperand_eq_of_samePair hs]
  case inequality.inequality a b => simp only [lasts, distinctKnown_eq_of_samePair hs]
  case bounds.bounds a b => rfl
  case membership.membership a b => simp only [lasts, (Membership.same_iff.1 hs).2.1]
  case mimcHash.mimcHash a b => rfl
  case merkleTree.merkleTree a b => rfl

/-! ## What rules take out and put in -/

namespace Substitution.Makes

variable {matched new : List Gadget}

theorem lasts_eq_false (h : Makes matched new) : ∀ m ∈ matched, m.lasts = false := by
  cases h with
  | point h => simp [Gadget.lasts]
  | touch hperm h => simp [hperm.mem_iff, Gadget.lasts]
  | intersect hperm h => simp [hperm.mem_iff, Gadget.lasts]
  | tautology h => simp [Gadget.lasts, (Equality.trivial?_eq_some h).1]
  | distinct h => simp [Gadget.lasts, (Inequality.trivial?_eq_some h).1]
  | single h =>
    obtain ⟨x, hx, -⟩ := Membership.single?_eq_some h
    simp [Gadget.lasts, hx]

/-- A membership that is taken out is one in a set of one element, which the member is then said to
equal. -/
theorem links_of_membership (h : Makes matched new) {m : Membership}
    (hm : .membership m ∈ matched) :
    ∃ x, m.set = [x] ∧ Links new m.member.identity x.identity := by
  cases h with
  | point h => simp at hm
  | touch hperm h => simp [hperm.mem_iff] at hm
  | intersect hperm h => simp [hperm.mem_iff] at hm
  | tautology h => simp at hm
  | distinct h => simp at hm
  | single h =>
    obtain rfl := Gadget.membership.inj (List.mem_singleton.1 hm)
    obtain ⟨x, hx, rfl⟩ := Membership.single?_eq_some h
    exact ⟨x, hx, _, m.member, x, List.mem_cons_self, .inl rfl, rfl, rfl⟩

/-- An equality that is put in is between a quantity and the number in which two of its ranges meet,
or between a member and the one element of its set. -/
theorem equality_cases (h : Makes matched new) {e : Equality} (he : .equality e ∈ new) :
    (∃ x p y, Ranges matched e.left.identity x p ∧ Ranges matched e.left.identity p y ∧
      e.right.identity = ⟨.disclosed, .integer p⟩) ∨
    .membership ⟨e.left, [e.right]⟩ ∈ matched := by
  cases h with
  | @point b _ h =>
    obtain ⟨n, hmin, hmax, rfl⟩ := Bounds.point?_eq_some h
    obtain rfl := Gadget.equality.inj (List.mem_singleton.1 he)
    have hb : Ranges [.bounds b] b.value.identity n n := ranges_singleton.2 ⟨rfl, hmin, hmax⟩
    exact .inl ⟨n, n, n, hb, hb, Variable.integer?_eq_some_iff_identity.1 hmin⟩
  | @touch a b _ _ hperm h =>
    obtain ⟨aMin, aMax, bMin, bMax, hmeet, hnew⟩ := Bounds.touch?_eq_some h
    obtain ⟨ha, hb⟩ := hmeet.spans
    have ha' := (ranges_pair.2 (.inl ha)).mono hperm.symm.subset
    have hb' := (ranges_pair.2 (.inr hb)).mono hperm.symm.subset
    rcases hnew with ⟨heq, rfl⟩ | ⟨heq, rfl⟩
    · obtain rfl := Gadget.equality.inj (List.mem_singleton.1 he)
      exact .inl ⟨aMin, aMax, bMax, ha', heq ▸ hb',
        Variable.integer?_eq_some_iff_identity.1 hmeet.aMax⟩
    · obtain rfl := Gadget.equality.inj (List.mem_singleton.1 he)
      exact .inl ⟨bMin, bMax, aMax, hb', heq ▸ ha',
        Variable.integer?_eq_some_iff_identity.1 hmeet.bMax⟩
  | intersect hperm h =>
    obtain ⟨_, _, _, _, -, -, -, rfl⟩ := Bounds.intersect?_eq_some h
    simp at he
  | tautology h =>
    obtain ⟨-, rfl⟩ := Equality.trivial?_eq_some h
    cases he
  | distinct h =>
    obtain ⟨-, rfl⟩ := Inequality.trivial?_eq_some h
    cases he
  | @single m _ h =>
    obtain ⟨x, hx, rfl⟩ := Membership.single?_eq_some h
    obtain rfl := Gadget.equality.inj (List.mem_singleton.1 he)
    exact .inr (by simp [← hx])

end Substitution.Makes

/-- Rules build no gadgets of given kinds. -/
theorem KeptByRules.given (gadgets : List Gadget) :
    KeptByRules fun g => g.isGiven = true → g ∈ gadgets where
  draws h _ hgiven := by
    cases h with
    | carry hperm h =>
      obtain ⟨_, _, -, -, -, rfl⟩ := Equality.carry?_eq_some h
      cases hgiven
    | chain hperm h =>
      obtain ⟨_, _, _, _, -, -, -, -, rfl⟩ := Equality.chain?_eq_some h
      cases hgiven
  makes h _ := by
    cases h with
    | point h =>
      obtain ⟨_, -, -, rfl⟩ := Bounds.point?_eq_some h
      simp [Gadget.isGiven]
    | touch hperm h =>
      obtain ⟨_, _, _, _, -, ⟨-, rfl⟩ | ⟨-, rfl⟩⟩ := Bounds.touch?_eq_some h <;>
        simp [Gadget.isGiven]
    | intersect hperm h =>
      obtain ⟨_, _, _, _, -, -, -, rfl⟩ := Bounds.intersect?_eq_some h
      simp [Gadget.isGiven]
    | tautology h =>
      obtain ⟨-, rfl⟩ := Equality.trivial?_eq_some h
      simp
    | distinct h =>
      obtain ⟨-, rfl⟩ := Inequality.trivial?_eq_some h
      simp
    | single h =>
      obtain ⟨_, -, rfl⟩ := Membership.single?_eq_some h
      simp [Gadget.isGiven]

/-! ## Steps and runs -/

namespace OptimizerState

variable {rules : RuleSet} {s t : OptimizerState} {g : Gadget}

theorem has_grown (hs : s.current.has g = true) : (s.grown rules).current.has g = true := by
  obtain ⟨k, hk, hsame⟩ := GadgetSet.has_iff.1 hs
  exact GadgetSet.has_iff.2 ⟨k, GadgetSet.subset_addAll hk, hsame⟩

theorem has_substitute? (h : s.substitute? rules = some t) (hg : g.lasts = true)
    (hs : s.current.has g = true) : t.current.has g = true := by
  obtain ⟨matched, new, others, hmakes, hperm, rfl⟩ := substitute?_eq_some h
  obtain ⟨k, hk, hsame⟩ := GadgetSet.has_iff.1 hs
  refine GadgetSet.has_iff.2 ⟨k, GadgetSet.subset_addAll ?_, hsame⟩
  refine (List.mem_append.1 (hperm.subset hk)).resolve_left fun hmatched => ?_
  have hfalse := hmakes.lasts_eq_false k hmatched
  rw [Gadget.lasts_eq_of_same hsame, hg] at hfalse
  cases hfalse

/-- What lasts is there for good. -/
theorem Reaches.has (h : Reaches rules s t) (hg : g.lasts = true)
    (hs : s.current.has g = true) : t.current.has g = true :=
  h.keeps (P := fun s => s.current.has g = true) (fun _ hs => has_grown hs)
    (fun _ _ hs ht => has_substitute? ht hg hs) hs

/-- A membership in a set of one element, or the equality that it is replaced by, is at hand. -/
def KeepsSingle (m : Membership) (x : Variable) (s : OptimizerState) : Prop :=
  s.current.has (.membership m) = true ∨ Links s.current m.member.identity x.identity

variable {m : Membership} {x : Variable}

theorem KeepsSingle.grown (hs : s.KeepsSingle m x) : (s.grown rules).KeepsSingle m x :=
  hs.imp has_grown fun hl => links_grown.2 (.inl hl)

theorem KeepsSingle.substitute? (hs : s.KeepsSingle m x) (hx : m.set = [x])
    (hne : m.member.identity ≠ x.identity) (h : s.substitute? rules = some t) :
    t.KeepsSingle m x := by
  rcases hs with hs | hl
  · obtain ⟨matched, new, others, hmakes, hperm, rfl⟩ := substitute?_eq_some h
    obtain ⟨m', hm', hsame⟩ := GadgetSet.exists_of_has_membership hs
    rcases List.mem_append.1 (hperm.subset hm') with hmatched | hothers
    · -- what is taken out is a membership of the same member in the same element
      obtain ⟨hmember, -, hsub⟩ := Membership.same_iff.1 hsame
      obtain ⟨y, hy, hlinks⟩ := hmakes.links_of_membership hmatched
      have hyx : y.identity = x.identity := by simpa [hy, hx] using hsub
      rw [hmember, hyx] at hlinks
      exact .inr (GadgetSet.links_addAll.2 (.inr hlinks))
    · exact .inl (GadgetSet.has_iff.2 ⟨_, GadgetSet.subset_addAll hothers, hsame⟩)
  · exact .inr (links_substitute? h hne hl)

theorem Reaches.keepsSingle (h : Reaches rules s t) (hx : m.set = [x])
    (hne : m.member.identity ≠ x.identity) (hs : s.KeepsSingle m x) : t.KeepsSingle m x :=
  h.keeps (fun _ hs => hs.grown) (fun _ _ hs ht => hs.substitute? hx hne ht) hs

end OptimizerState

/-! ## Results -/

/-- Settled gadgets last, but for bounds. -/
theorem Settled.lasts {out : List Gadget} (h : Settled out) {g : Gadget} (hg : g ∈ out)
    (hbounds : ∀ b, g ≠ .bounds b) : g.lasts = true := by
  cases g with
  | equality e => simp [Gadget.lasts, h.not_sameOperand_equality hg]
  | inequality i => simp [Gadget.lasts, h.not_distinctKnown hg]
  | bounds b => exact absurd rfl (hbounds b)
  | membership m => simpa [Gadget.lasts] using h.length_ne_one hg
  | mimcHash m => rfl
  | merkleTree m => rfl

namespace Optimizer

variable {rules : RuleSet} {cap : Nat} {gadgets out : List Gadget} {g : Gadget}

/-- **What lasts is in the result.** -/
theorem has_of_optimize (h : optimize rules cap gadgets = .ok out) (hg : g ∈ gadgets)
    (hlasts : g.lasts = true) : GadgetSet.has out g = true := by
  obtain ⟨t, hreach, hstable⟩ := optimize_eq_ok h
  rw [← OptimizerState.current_of_step_stable hstable]
  exact hreach.has hlasts (GadgetSet.has_ofList hg)

/-- **A membership in a set of one element ends as an equality.** -/
theorem links_of_single (hcheck : ∀ g ∈ gadgets, g.check = .ok ())
    (h : optimize .standard cap gadgets = .ok out) {m : Membership} {x : Variable}
    (hm : .membership m ∈ gadgets) (hx : m.set = [x])
    (hne : m.member.identity ≠ x.identity) : Links out m.member.identity x.identity := by
  obtain ⟨t, hreach, hstable⟩ := optimize_eq_ok h
  have hkeeps : t.KeepsSingle m x :=
    hreach.keepsSingle hx hne (.inl (GadgetSet.has_ofList hm))
  rw [OptimizerState.KeepsSingle, OptimizerState.current_of_step_stable hstable] at hkeeps
  refine hkeeps.resolve_left fun hhas => ?_
  obtain ⟨m', hm', hsame⟩ := GadgetSet.exists_of_has_membership hhas
  refine (settled_of_optimize hcheck h).length_ne_one hm' ?_
  rw [(Membership.same_iff.1 hsame).2.1, hx]
  rfl

end Optimizer

end Attestation
