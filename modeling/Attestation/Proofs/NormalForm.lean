import Attestation.Proofs.LinksRanges
import Attestation.Proofs.OptimizerMeaning
import Attestation.Proofs.Termination

/-!
# What comes out of the optimizer

Rules build gadgets without checking them, and still every gadget that comes out meets its contract,
whatever rules are selected (`Optimizer.optimize_keeps_contracts`).

Under all rules the result is settled (`Settled`, `Optimizer.settled_of_optimize`): no gadget is
there twice, no rule finds a contradiction or a substitution, and quantities that are linked through
a third are linked. The last is not a matter of the last step alone, since what was seen before is
not implied again. It takes that the link of two quantities is there for good once it is there
(`OptimizerState.KeepsLinks`). It follows that a quantity has one range at most
(`Settled.ranges_unique`), which is more than a point (`Settled.ranges_lt`).
-/

namespace Attestation

open OptimizerState

/-! ## Contracts -/

namespace Optimizer

/-- **The optimizer keeps the contracts of gadgets.** If gadgets meet their contracts, then so does
everything that comes out: equal quantities are of one type, bounds are a range of known numbers
that is not empty around a witness integer, sets are disclosed and without repetition, and so on. -/
theorem optimize_keeps_contracts (rules : RuleSet) (cap : Nat) (gadgets out : List Gadget)
    (hcheck : ∀ g ∈ gadgets, g.check = .ok ()) (h : optimize rules cap gadgets = .ok out) :
    ∀ g ∈ out, g.check = .ok () ∧ g.Valid := by
  intro g hg
  have hok := KeptByRules.check.optimize h hcheck g hg
  exact ⟨hok, Gadget.check_eq_ok_iff.1 hok⟩

/-- What is left of ranges that overlap between `5` and `10`. -/
def linkedIntersections : List Gadget :=
  [.equality ⟨sealedInteger "a", sealedInteger "b"⟩,
    .bounds ⟨sealedInteger "a", .constant (.integer 5), .constant (.integer 10)⟩,
    .bounds ⟨sealedInteger "b", .constant (.integer 5), .constant (.integer 10)⟩]

theorem optimize_keeps_contracts_linkedRanges :
    optimize .standard 5 (linkedRanges 5) = .ok linkedIntersections ∧
      ∀ g ∈ linkedIntersections, g.check = .ok () ∧ g.Valid := by
  have h : optimize .standard 5 (linkedRanges 5) = .ok linkedIntersections := by decide +kernel
  exact ⟨h, optimize_keeps_contracts _ _ _ _ (by decide +kernel) h⟩

end Optimizer

/-! ## Where no rule applies -/

namespace RuleSet

variable {rules : RuleSet} {gadgets : List Gadget}

theorem contradiction?_eq_none_iff : rules.contradiction? gadgets = none ↔
    ∀ rule ∈ rules.contradictions, rule.pattern.Silent gadgets := by
  simp only [contradiction?, List.findSome?_eq_none_iff, Pattern.first?_eq_none_iff]

theorem substitution?_eq_none_iff : rules.substitution? gadgets = none ↔
    ∀ rule ∈ rules.substitutions, rule.pattern.Silent gadgets := by
  simp only [substitution?, List.findSome?_eq_none_iff, Pattern.extract?_eq_none_iff]

theorem sublist_of_substitution? {new others : List Gadget} (hl : gadgets.Nodup)
    (h : rules.substitution? gadgets = some (new, others)) : others.Sublist gadgets := by
  obtain ⟨rule, -, h⟩ := List.exists_of_findSome?_eq_some h
  exact Pattern.sublist_of_extract? hl h

theorem mem_implied_of_says (rule : Implication) (hrule : rule ∈ rules.implications)
    {x y g : Gadget} (hsub : [x, y].Sublist gadgets) (h : rule.pattern.Says [x, y] g) :
    g ∈ rules.implied gadgets :=
  List.mem_flatMap.2 ⟨rule, hrule, Pattern.mem_allPairs_of_says hsub h⟩

end RuleSet

/-- Of two different items of a list one comes before the other. -/
theorem sublist_pair_or {α : Type} {l : List α} {a b : α} (ha : a ∈ l) (hb : b ∈ l) (hne : a ≠ b) :
    [a, b].Sublist l ∨ [b, a].Sublist l := by
  induction l with
  | nil => cases ha
  | cons c rest ih =>
    rcases List.mem_cons.1 ha with rfl | ha'
    · rcases List.mem_cons.1 hb with rfl | hb'
      · exact absurd rfl hne
      · exact .inl ((List.singleton_sublist.2 hb').cons_cons _)
    · rcases List.mem_cons.1 hb with rfl | hb'
      · exact .inr ((List.singleton_sublist.2 ha').cons_cons _)
      · exact (ih ha' hb').imp (fun h => h.cons c) fun h => h.cons c

namespace Equality

theorem carry?_of_joins {e : Equality} {b : Bounds} {x y : Variable} (h : e.Joins x y)
    (hx : x.identity = b.value.identity) (hne : x.identity ≠ y.identity)
    (hy : y.visibility = .witness) : e.carry? b = some (.bounds ⟨y, b.min, b.max⟩) := by
  have hyb : y.identity ≠ b.value.identity := fun heq => hne (hx.trans heq.symm)
  rcases h with rfl | rfl <;>
    simp [carry?, counterpart?, Variable.same, Variable.isWitness, hx, hyb, hy]

/-- An equality has two sides only. -/
theorem Joins.identity_eq {e : Equality} {x m m' y : Variable} (h : e.Joins x m) (h' : e.Joins m' y)
    (hm : m.identity = m'.identity) (hne : x.identity ≠ m.identity) : x.identity = y.identity := by
  rcases h with rfl | rfl <;> rcases h' with h' | h' <;> cases h'
  · exact absurd hm.symm hne
  · rfl
  · rfl
  · exact absurd hm.symm hne

theorem chain?_of_joins {a b : Equality} {x s t y : Variable} (ha : a.Joins x s)
    (hb : b.Joins t y) (hst : s.identity = t.identity) (hxs : x.identity ≠ s.identity)
    (hsy : s.identity ≠ y.identity) (hxy : x.identity ≠ y.identity) :
    a.chain? b = some (.equality ⟨x, y⟩) := by
  have htx : t.identity ≠ x.identity := fun heq => hxs (heq.symm.trans hst.symm)
  have hyt : y.identity ≠ t.identity := fun heq => hsy (hst.trans heq.symm)
  rcases ha with rfl | rfl <;> rcases hb with rfl | rfl <;>
    simp [chain?, outer?, counterpart?, Variable.same, hst, htx, hyt, hxy, hxy.symm]

end Equality

/-- Ranges for one quantity that are not apart can be intersected. -/
theorem Bounds.exists_intersect? {a b : Bounds} {v : Identity} {aMin aMax bMin bMax : Int}
    (ha : a.Spans v aMin aMax) (hb : b.Spans v bMin bMax) (hmeet : a.disjoint? b = none) :
    ∃ new, a.intersect? b = some new := by
  have hends : a.Meet b aMin aMax bMin bMax :=
    ⟨ha.value.trans hb.value.symm, ha.min, ha.max, hb.min, hb.max⟩
  have hnot : ¬ (aMax < bMin ∨ bMax < aMin) := by
    intro hapart
    obtain ⟨error, herror⟩ := exists_disjoint?_iff.2 ⟨_, _, _, _, hends, hapart⟩
    rw [hmeet] at herror
    cases herror
  exact exists_intersect?_iff.2 ⟨_, _, _, _, hends, by omega, by omega⟩

/-! ## The last step -/

namespace OptimizerState

variable {rules : RuleSet} {s t : OptimizerState} {u v w : Identity} {lo hi : Int}

theorem distinct_substitute? (h : s.substitute? rules = some t) (hs : s.current.Distinct) :
    t.current.Distinct := by
  obtain ⟨⟨new, others⟩, hsub, rfl⟩ := Option.map_eq_some_iff.1 h
  have hothers : GadgetSet.Distinct others :=
    hs.sublist (RuleSet.sublist_of_substitution? hs.nodup hsub)
  exact hothers.addAll

theorem Reaches.distinct (h : Reaches rules s t) (hs : s.current.Distinct) : t.current.Distinct :=
  h.keeps (fun _ hs => hs.addAll) (fun _ _ hs ht => distinct_substitute? ht hs) hs

/-- Quantities that were ever said to be equal are said to be so. -/
def KeepsLinks (s : OptimizerState) : Prop :=
  ∀ v w, v ≠ w → Links s.seen v w → Links s.current v w

theorem KeepsLinks.grown (hs : s.KeepsLinks) : (s.grown rules).KeepsLinks := by
  intro v w hne hl
  rcases GadgetSet.links_addAll.1 hl with hl | hl
  · exact links_grown.2 (.inl (hs v w hne hl))
  · exact links_grown.2 (.inr hl)

theorem KeepsLinks.substitute? (hs : s.KeepsLinks) (h : s.substitute? rules = some t) :
    t.KeepsLinks := by
  intro v w hne hl
  rcases links_seen_of_substitute? h hl with hl | hl
  · exact links_substitute? h hne (hs v w hne hl)
  · exact hl

theorem Reaches.keepsLinks (h : Reaches rules s t) (hs : s.KeepsLinks) : t.KeepsLinks :=
  h.keeps (fun _ hs => hs.grown) (fun _ _ hs ht => hs.substitute? ht) hs

/-- A last step finds the gadgets as it leaves them. -/
theorem current_of_step_stable {out : List Gadget} (h : s.step rules = .stable out) :
    s.current = out := by
  obtain ⟨-, -, hlength, rfl⟩ := step_stable_cases h
  obtain ⟨extra, hextra⟩ := @GadgetSet.exists_addAll_eq_append s.current (s.fresh rules)
  have hgrown : (s.grown rules).current = s.current ++ extra := hextra
  rw [hgrown, List.length_append] at hlength
  have hnil : extra = [] := List.eq_nil_of_length_eq_zero (by omega)
  rw [hgrown, hnil, List.append_nil]

/-- Quantities that are linked through a third are recorded as linked. -/
theorem links_seen_of_links (huv : Links s.current u v) (hvw : Links s.current v w) (hne : u ≠ v)
    (hne' : v ≠ w) (huw : u ≠ w) : Links (s.grown .standard).seen u w := by
  obtain ⟨a, x, m, ha, hxm, rfl, rfl⟩ := huv
  obtain ⟨b, m', y, hb, hmy, hm, rfl⟩ := hvw
  have hchain := Equality.chain?_of_joins hxm hmy hm.symm hne hne' huw
  have hchain' := Equality.chain?_of_joins hmy.symm hxm.symm hm (hm ▸ hne'.symm)
    (hm ▸ hne.symm) huw.symm
  have hab : Gadget.equality a ≠ .equality b := by
    intro heq
    obtain rfl := Gadget.equality.inj heq
    exact huw (hxm.identity_eq hmy hm.symm hne)
  rcases sublist_pair_or ha hb hab with hsub | hsub
  · exact links_seen_of_implied (RuleSet.mem_implied_of_says .transitivity (by decide) hsub
      (Pattern.says_two_of rfl rfl hchain))
  · exact (links_seen_of_implied (RuleSet.mem_implied_of_says .transitivity (by decide) hsub
      (Pattern.says_two_of rfl rfl hchain'))).symm

/-- Ranges are recorded for the witnesses that a quantity is linked to. -/
theorem ranges_seen_of_links (hl : Links s.current u v) (hr : Ranges s.current u lo hi)
    (hne : u ≠ v) (hv : v.visibility = .witness) : Ranges (s.grown .standard).seen v lo hi := by
  obtain ⟨e, x, y, he, hxy, rfl, rfl⟩ := hl
  obtain ⟨b, hb, hspans⟩ := hr
  have hcarry := Equality.carry?_of_joins hxy hspans.value.symm hne hv
  have himplied : Gadget.bounds ⟨y, b.min, b.max⟩ ∈ RuleSet.standard.implied s.current := by
    rcases sublist_pair_or he hb (by simp) with hsub | hsub
    · exact RuleSet.mem_implied_of_says .boundsOverEquality (by decide) hsub
        (Pattern.says_two_of rfl rfl hcarry)
    · exact RuleSet.mem_implied_of_says .boundsOverEquality (by decide) hsub
        (Pattern.says_two_swap rfl rfl rfl hcarry)
  exact ranges_seen_of_implied himplied ⟨rfl, hspans.min, hspans.max⟩

end OptimizerState

/-! ## Settled gadgets -/

/-- Gadgets that all rules have been applied to. -/
structure Settled (out : List Gadget) : Prop where
  check : ∀ g ∈ out, g.check = .ok ()
  distinct : GadgetSet.Distinct out
  contradiction : RuleSet.standard.contradiction? out = none
  substitution : RuleSet.standard.substitution? out = none
  links_trans : ∀ {u v w : Identity}, Links out u v → Links out v w → u ≠ w → Links out u w

/-- Two quantities are one or are said to be equal. -/
def Alike (gadgets : List Gadget) (u v : Identity) : Prop :=
  v = u ∨ Links gadgets u v

theorem Alike.symm {gadgets : List Gadget} {u v : Identity} (h : Alike gadgets u v) :
    Alike gadgets v u :=
  h.imp Eq.symm Links.symm

namespace Settled

variable {out : List Gadget} {u v w : Identity} {lo hi lo' hi' : Int}

theorem valid_bounds (h : Settled out) {b : Bounds} (hb : .bounds b ∈ out) : b.Valid :=
  Bounds.check_eq_ok_iff.1 (h.check _ hb)

/-- A range is more than a point. -/
theorem ranges_lt (h : Settled out) (hr : Ranges out v lo hi) : lo < hi := by
  obtain ⟨b, hb, hspans⟩ := hr
  have hle : lo ≤ hi := (h.valid_bounds hb).le hspans.min hspans.max
  refine Int.lt_iff_le_and_ne.2 ⟨hle, ?_⟩
  rintro rfl
  have hpoint : b.point? = some [.equality ⟨b.value, b.min⟩] := by
    simp [Bounds.point?, Bounds.range?_eq_some_iff.2 ⟨hspans.min, hspans.max⟩]
  have hsilent := RuleSet.substitution?_eq_none_iff.1 h.substitution .pointRange (by decide)
  exact hsilent _ _ (List.singleton_sublist.2 hb) (Pattern.says_one_of rfl hpoint)

/-- No bounds for a quantity stand before others: they would be apart or have something in
common. -/
theorem not_sublist_bounds (h : Settled out) {a b : Bounds} (ha : a.Spans v lo hi)
    (hb : b.Spans v lo' hi') : ¬ [Gadget.bounds a, .bounds b].Sublist out := by
  intro hsub
  have hmeet : a.disjoint? b = none := by
    have hsilent := RuleSet.contradiction?_eq_none_iff.1 h.contradiction .disjointRanges (by decide)
    refine Option.eq_none_iff_forall_ne_some.2 fun error herror => ?_
    exact hsilent _ _ hsub (Pattern.says_two_of rfl rfl herror)
  obtain ⟨new, hnew⟩ := Bounds.exists_intersect? ha hb hmeet
  have hsilent := RuleSet.substitution?_eq_none_iff.1 h.substitution .rangeIntersection (by decide)
  exact hsilent _ _ hsub (Pattern.says_two_of rfl rfl hnew)

/-- There is one range at most for a quantity. -/
theorem ranges_unique (h : Settled out) (hr : Ranges out v lo hi) (hr' : Ranges out v lo' hi') :
    lo = lo' ∧ hi = hi' := by
  obtain ⟨a, ha, hspans⟩ := hr
  obtain ⟨b, hb, hspans'⟩ := hr'
  by_cases hab : a = b
  · subst hab
    exact hspans.unique hspans'
  · rcases sublist_pair_or ha hb (by simpa using hab) with hsub | hsub
    · exact absurd hsub (h.not_sublist_bounds hspans hspans')
    · exact absurd hsub (h.not_sublist_bounds hspans' hspans)

theorem alike_of_links (h : Settled out) (u v w : Identity) (hu : Alike out u v)
    (hl : Links out v w) : Alike out u w := by
  by_cases hne : w = u
  · exact .inl hne
  rcases hu with rfl | hu
  · exact .inr hl
  · exact .inr (h.links_trans hu hl (Ne.symm hne))

theorem alike_trans (h : Settled out) (huv : Alike out u v) (hvw : Alike out v w) :
    Alike out u w := by
  rcases hvw with rfl | hl
  · exact huv
  · exact h.alike_of_links u v w huv hl

theorem links_of_alike (h : Settled out) (hv : Alike out u v) (hw : Alike out u w) (hne : v ≠ w) :
    Links out v w := by
  rcases hv with rfl | hv
  · exact hw.resolve_left (Ne.symm hne)
  rcases hw with rfl | hw
  · exact hv.symm
  · exact h.links_trans hv.symm hw hne

/-- Settled gadgets are a state to start from as they are. -/
theorem initial_eq (h : Settled out) : OptimizerState.initial out = ⟨out, out⟩ := by
  have hof : GadgetSet.ofList out = out := GadgetSet.addAll_eq_append h.distinct
  simp [OptimizerState.initial, hof]

end Settled

namespace OptimizerState

variable {s : OptimizerState} {out : List Gadget}

/-- What a last step leaves is settled. -/
theorem settled_of_stable (hcheck : ∀ g ∈ s.current, g.check = .ok ())
    (hdistinct : s.current.Distinct) (hlinks : s.KeepsLinks)
    (h : s.step .standard = .stable out) : Settled out := by
  obtain ⟨hcontra, hsub, -, hgrown⟩ := step_stable_cases h
  obtain rfl := current_of_step_stable h
  refine ⟨hcheck, hdistinct, hcontra, ?_, fun {u v w} huv hvw huw => ?_⟩
  · rw [← hgrown]
    exact Option.map_eq_none_iff.1 hsub
  · by_cases hne : u = v
    · exact hne ▸ hvw
    by_cases hne' : v = w
    · exact hne' ▸ huv
    have hseen := links_seen_of_links huv hvw hne hne' huw
    exact hgrown ▸ hlinks.grown u w huw hseen

end OptimizerState

namespace Optimizer

/-- The result of the optimizer is settled. -/
theorem settled_of_optimize {cap : Nat} {gadgets out : List Gadget}
    (hcheck : ∀ g ∈ gadgets, g.check = .ok ()) (h : optimize .standard cap gadgets = .ok out) :
    Settled out := by
  obtain ⟨t, hreach, hstable⟩ := optimize_eq_ok h
  refine settled_of_stable (KeptByRules.check.reaches hreach (KeptByRules.initial hcheck)) ?_ ?_
    hstable
  · exact hreach.distinct (GadgetSet.distinct_ofList gadgets)
  · exact hreach.keepsLinks fun v w _ hl => hl

end Optimizer

end Attestation
