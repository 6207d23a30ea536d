import Attestation.Proofs.OptimizerRun
import Attestation.Proofs.RuleMeaning

/-!
# The optimizer keeps the meaning of gadgets

Whatever rules are selected and however many steps are allowed, the gadgets that come out hold under
the same assignments as those that went in, and a contradiction is reported only where no assignment
makes them hold (`Optimizer.optimize_keeps_meaning`). The invariant of a run is that all gadgets at
hand are admissible; it carries the soundness of single rules (`Gadget.Admissible.kept`).
-/

namespace Attestation

variable {hashing : Hashing} {σ : Assignment}

/-! ## Adding gadgets to a set -/

theorem GadgetSet.satisfies_add {set : GadgetSet} {g : Gadget}
    (hset : ∀ h ∈ set, h.check = .ok ()) :
    Satisfies hashing σ (set.add g) ↔ Satisfies hashing σ set ∧ g.Holds hashing σ := by
  unfold GadgetSet.add
  split_ifs with hhas
  · obtain ⟨h, hmem, hsame⟩ := GadgetSet.has_iff.1 hhas
    refine (and_iff_left_of_imp fun hsat => ?_).symm
    exact (Gadget.holds_iff_of_same hsame (hset h hmem)).1 (hsat h hmem)
  · rw [satisfies_append, satisfies_singleton]

theorem GadgetSet.satisfies_addAll {set : GadgetSet} {gs : List Gadget}
    (hset : ∀ h ∈ set, h.check = .ok ()) (hgs : ∀ h ∈ gs, h.check = .ok ()) :
    Satisfies hashing σ (set.addAll gs) ↔ Satisfies hashing σ set ∧ Satisfies hashing σ gs := by
  induction gs generalizing set with
  | nil => simp [GadgetSet.addAll, Satisfies]
  | cons g gs ih =>
    have hadd : ∀ h ∈ set.add g, h.check = .ok () := by
      intro h hmem
      rcases GadgetSet.mem_add hmem with hmem | rfl
      · exact hset h hmem
      · exact hgs h List.mem_cons_self
    have hcons : Satisfies hashing σ (g :: gs) ↔ g.Holds hashing σ ∧ Satisfies hashing σ gs :=
      List.forall_mem_cons
    change Satisfies hashing σ ((set.add g).addAll gs) ↔ _
    rw [ih hadd fun h hmem => hgs h (List.mem_cons_of_mem _ hmem), GadgetSet.satisfies_add hset,
      hcons, and_assoc]

/-! ## Steps and runs -/

/-- Rules make admissible gadgets from admissible gadgets. -/
theorem Gadget.Admissible.kept : KeptByRules Gadget.Admissible := by
  have h := KeptByRules.check.and
    (KeptByRules.vars fun v => v.visibility = .disclosed → v.literal.isSealed = false)
  constructor
  · intro matched g hdraws hm
    have hg := h.draws hdraws fun m hmem => ⟨(hm m hmem).check, (hm m hmem).known⟩
    exact ⟨hg.1, hg.2⟩
  · intro matched new hmakes hm g hg
    have hg := h.makes hmakes (fun m hmem => ⟨(hm m hmem).check, (hm m hmem).known⟩) g hg
    exact ⟨hg.1, hg.2⟩

namespace OptimizerState

variable {rules : RuleSet} {s t : OptimizerState}

theorem satisfies_initial {gadgets : List Gadget} (h : ∀ g ∈ gadgets, g.check = .ok ()) :
    Satisfies hashing σ (initial gadgets).current ↔ Satisfies hashing σ gadgets := by
  change Satisfies hashing σ (GadgetSet.addAll [] gadgets) ↔ _
  rw [GadgetSet.satisfies_addAll (by simp) h]
  exact and_iff_right (by simp [Satisfies])

theorem satisfies_grown (hs : ∀ g ∈ s.current, g.check = .ok ()) :
    Satisfies hashing σ (s.grown rules).current ↔ Satisfies hashing σ s.current := by
  have hfresh : ∀ g ∈ s.fresh rules, g.check = .ok () := by
    intro g hg
    obtain ⟨matched, hdraws, hsub⟩ := mem_fresh hg
    exact hdraws.check fun m hm => hs m (hsub hm)
  change Satisfies hashing σ (s.current.addAll (s.fresh rules)) ↔ _
  rw [GadgetSet.satisfies_addAll hs hfresh]
  refine and_iff_left_of_imp fun hsat g hg => ?_
  obtain ⟨matched, hdraws, hsub⟩ := mem_fresh hg
  exact hdraws.holds fun m hm => hsat m (hsub hm)

theorem satisfies_substitute? (h : s.substitute? rules = some t)
    (hs : ∀ g ∈ s.current, g.check = .ok ()) :
    Satisfies hashing σ t.current ↔ Satisfies hashing σ s.current := by
  obtain ⟨matched, new, others, hmakes, hperm, rfl⟩ := substitute?_eq_some h
  have hall : ∀ m ∈ matched ++ others, m.check = .ok () := fun m hm => hs m (hperm.symm.subset hm)
  have hmatched : ∀ m ∈ matched, m.check = .ok () := fun m hm => hall m (List.mem_append_left _ hm)
  have hothers : ∀ m ∈ others, m.check = .ok () := fun m hm => hall m (List.mem_append_right _ hm)
  change Satisfies hashing σ (GadgetSet.addAll others new) ↔ _
  rw [GadgetSet.satisfies_addAll hothers (hmakes.check hmatched), satisfies_of_perm hperm,
    satisfies_append, hmakes.satisfies_iff hmatched, and_comm]

/-- **A step keeps the meaning** of the gadgets at hand. -/
theorem satisfies_of_step (h : s.step rules = .next t) (hs : ∀ g ∈ s.current, g.check = .ok ()) :
    Satisfies hashing σ t.current ↔ Satisfies hashing σ s.current := by
  rcases step_eq_next h with h | rfl
  · rw [satisfies_substitute? h (KeptByRules.check.grown hs), satisfies_grown hs]
  · exact satisfies_grown hs

theorem satisfies_of_reaches (h : Reaches rules s t) (hs : ∀ g ∈ s.current, g.check = .ok ()) :
    Satisfies hashing σ t.current ↔ Satisfies hashing σ s.current := by
  induction h with
  | refl s => exact Iff.rfl
  | head h _ ih => rw [ih (KeptByRules.check.step h hs), satisfies_of_step h hs]

theorem not_satisfies_of_step {error : Diagnostic} (h : s.step rules = .contradiction error)
    (hs : ∀ g ∈ s.current, g.Admissible) : ¬ Satisfies hashing σ s.current := by
  obtain ⟨matched, hfinds, hsub⟩ := RuleSet.contradiction?_eq_some (step_eq_contradiction h)
  intro hsat
  exact hfinds.not_satisfies (fun m hm => hs m (hsub hm)) fun m hm => hsat m (hsub hm)

end OptimizerState

namespace Optimizer

variable {rules : RuleSet} {cap : Nat} {gadgets : List Gadget}

theorem satisfies_optimize {out : List Gadget} (h : optimize rules cap gadgets = .ok out)
    (hg : ∀ g ∈ gadgets, g.check = .ok ()) :
    Satisfies hashing σ out ↔ Satisfies hashing σ gadgets := by
  obtain ⟨t, hreach, hstable⟩ := optimize_eq_ok h
  have hinit := KeptByRules.initial hg
  rw [← OptimizerState.step_eq_stable hstable,
    OptimizerState.satisfies_grown (KeptByRules.check.reaches hreach hinit),
    OptimizerState.satisfies_of_reaches hreach hinit, OptimizerState.satisfies_initial hg]

theorem not_satisfies_of_optimize {error : Diagnostic}
    (h : optimize rules cap gadgets = .error error) (hkind : error.kind = .contradiction)
    (hg : ∀ g ∈ gadgets, g.Admissible) : ¬ Satisfies hashing σ gadgets := by
  rcases optimize_eq_error h with rfl | ⟨t, hreach, hstep⟩
  · -- a run that is cut short reports no contradiction
    cases hkind
  · have hcheck : ∀ g ∈ gadgets, g.check = .ok () := fun g hmem => (hg g hmem).check
    have ht := Gadget.Admissible.kept.reaches hreach (KeptByRules.initial hg)
    rw [← OptimizerState.satisfies_initial hcheck,
      ← OptimizerState.satisfies_of_reaches hreach (KeptByRules.initial hcheck)]
    exact OptimizerState.not_satisfies_of_step hstep ht

/-- **The optimizer keeps the meaning of gadgets.** Let gadgets meet their contracts and know their
disclosed variables. If they can be optimized, the result holds under exactly the assignments under
which they hold. If they are found to contradict each other, they hold under none. -/
theorem optimize_keeps_meaning (rules : RuleSet) (cap : Nat) (gadgets : List Gadget)
    (hcheck : ∀ g ∈ gadgets, g.check = .ok ())
    (hknown : ∀ g ∈ gadgets, ∀ v ∈ g.vars, v.visibility = .disclosed → v.literal.isSealed = false)
    (hashing : Hashing) :
    (∀ out, optimize rules cap gadgets = .ok out →
      ∀ σ, Satisfies hashing σ gadgets ↔ Satisfies hashing σ out) ∧
    (∀ error, optimize rules cap gadgets = .error error → error.kind = .contradiction →
      ∀ σ, ¬ Satisfies hashing σ gadgets) := by
  constructor
  · intro out h σ
    exact (satisfies_optimize h hcheck).symm
  · intro error h hkind σ
    exact not_satisfies_of_optimize h hkind fun g hg => ⟨hcheck g hg, hknown g hg⟩

/-- A sealed integer of some subject. -/
def sealedInteger (name : String) : Variable :=
  ⟨.witness, .sealed ⟨.integer, "pass", ⟨[name]⟩⟩, none, some ⟨.integer, "pass", ⟨[name]⟩⟩⟩

/-- Two quantities that are said to be equal and lie in ranges from `0` to `10` and from `lo` to
`20`. -/
def linkedRanges (lo : Int) : List Gadget :=
  [.bounds ⟨sealedInteger "a", .constant (.integer 0), .constant (.integer 10)⟩,
    .bounds ⟨sealedInteger "b", .constant (.integer lo), .constant (.integer 20)⟩,
    .equality ⟨sealedInteger "a", sealedInteger "b"⟩]

/-- What is left of ranges that meet in `10`. -/
def linkedEqualities : List Gadget :=
  [.equality ⟨sealedInteger "a", sealedInteger "b"⟩,
    .equality ⟨sealedInteger "a", .constant (.integer 10)⟩,
    .equality ⟨sealedInteger "b", .constant (.integer 10)⟩]

theorem optimize_keeps_meaning_linkedRanges :
    (optimize .standard 5 (linkedRanges 10) = .ok linkedEqualities ∧ ∀ hashing σ,
      Satisfies hashing σ (linkedRanges 10) ↔ Satisfies hashing σ linkedEqualities) ∧
    ∀ hashing σ, ¬ Satisfies hashing σ (linkedRanges 11) := by
  have h10 : optimize .standard 5 (linkedRanges 10) = .ok linkedEqualities := by decide +kernel
  obtain ⟨error, h11, hkind⟩ : ∃ error, optimize .standard 5 (linkedRanges 11) = .error error ∧
      error.kind = .contradiction := ⟨_, rfl, rfl⟩
  refine ⟨⟨h10, fun hashing => ?_⟩, fun hashing => ?_⟩
  · exact (optimize_keeps_meaning _ _ _ (by decide +kernel) (by decide +kernel) hashing).1 _ h10
  · exact (optimize_keeps_meaning _ _ _ (by decide +kernel) (by decide +kernel) hashing).2
      _ h11 hkind

end Optimizer

end Attestation
