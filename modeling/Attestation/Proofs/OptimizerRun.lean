import Attestation.Optimizer
import Attestation.Proofs.RuleResult

/-!
# Runs of the optimizer

A step of the optimizer does one of three things, and `OptimizerState.step_eq_contradiction`,
`step_stable_cases` and `step_next_cases` say what they take. A run is a sequence of steps
(`OptimizerState.Reaches`); `Optimizer.optimize_eq_ok` and `optimize_eq_error` say from which state
an outcome was given.

What is true of every gadget in a run follows from the rules alone: a property that implications and
substitutions pass on from the gadgets they match to those they build (`KeptByRules`) holds of every
gadget that is ever at hand, whatever rules were selected (`KeptByRules.reaches`,
`KeptByRules.optimize`).
-/

namespace Attestation

/-! ## Sets of gadgets -/

theorem Gadget.same_refl (g : Gadget) : g.same g = true := by
  cases g with
  | equality g => simp [same, Equality.same, samePair, Variable.same_refl]
  | inequality g => simp [same, Inequality.same, samePair, Variable.same_refl]
  | bounds g => simp [same, Bounds.same, Variable.same_refl]
  | membership g =>
    have hall : ∀ v ∈ g.set, g.hasElement v = true :=
      fun v hv => List.any_eq_true.2 ⟨v, hv, Variable.same_refl v⟩
    simpa [same, Membership.same, Variable.same_refl] using hall
  | mimcHash g => simp [same, MimcHash.same, Variable.same_refl]
  | merkleTree g => simp [same, MerkleTree.same, Variable.same_refl]

namespace GadgetSet

variable {set : GadgetSet} {g h : Gadget} {gs : List Gadget}

theorem has_iff : set.has g = true ↔ ∃ h ∈ set, h.same g = true := by
  simp [has]

theorem mem_add (hm : h ∈ set.add g) : h ∈ set ∨ h = g := by
  unfold add at hm
  split_ifs at hm with hg
  · exact .inl hm
  · simpa using hm

theorem mem_addAll (hm : h ∈ set.addAll gs) : h ∈ set ∨ h ∈ gs := by
  induction gs generalizing set with
  | nil => exact .inl hm
  | cons g gs ih =>
    rcases ih hm with hm | hm
    · rcases mem_add hm with hm | rfl
      · exact .inl hm
      · exact .inr List.mem_cons_self
    · exact .inr (List.mem_cons_of_mem _ hm)

theorem mem_ofList (hm : h ∈ ofList gs) : h ∈ gs := by
  simpa using mem_addAll hm

theorem subset_addAll (h : g ∈ set) : g ∈ set.addAll gs := by
  induction gs generalizing set with
  | nil => exact h
  | cons k gs ih =>
    refine ih ?_
    unfold add
    split_ifs
    · exact h
    · exact List.mem_append_left _ h

/-- Every gadget that is added is there as one that is the same. -/
theorem exists_same_of_mem (h : g ∈ gs) : ∃ k ∈ set.addAll gs, k.same g = true := by
  induction gs generalizing set with
  | nil => cases h
  | cons k gs ih =>
    rcases List.mem_cons.1 h with rfl | h
    · by_cases hhas : set.has g = true
      · obtain ⟨m, hm, hsame⟩ := has_iff.1 hhas
        refine ⟨m, ?_, hsame⟩
        exact subset_addAll hm
      · refine ⟨g, ?_, g.same_refl⟩
        have hadd : set.add g = set ++ [g] := if_neg hhas
        change g ∈ (set.add g).addAll gs
        rw [hadd]
        exact subset_addAll (List.mem_append_right _ (List.mem_singleton_self g))
    · exact ih h

end GadgetSet

/-! ## What a step looks at -/

namespace RuleSet

variable {rules : RuleSet} {gadgets : List Gadget}

theorem contradiction?_eq_some {error : Diagnostic}
    (h : rules.contradiction? gadgets = some error) :
    ∃ matched, Contradiction.Finds matched error ∧ matched ⊆ gadgets := by
  obtain ⟨rule, -, h⟩ := List.exists_of_findSome?_eq_some h
  obtain ⟨matched, hsaid, hsub⟩ := Pattern.first?_eq_some h
  exact ⟨matched, Contradiction.finds_of_says hsaid, hsub⟩

theorem mem_implied {g : Gadget} (h : g ∈ rules.implied gadgets) :
    ∃ matched, Implication.Draws matched g ∧ matched ⊆ gadgets := by
  obtain ⟨rule, -, h⟩ := List.mem_flatMap.1 h
  obtain ⟨matched, hsaid, hsub⟩ := Pattern.mem_allPairs h
  exact ⟨matched, Implication.draws_of_says hsaid, hsub⟩

theorem substitution?_eq_some {new others : List Gadget}
    (h : rules.substitution? gadgets = some (new, others)) :
    ∃ matched, Substitution.Makes matched new ∧ gadgets.Perm (matched ++ others) := by
  obtain ⟨rule, -, h⟩ := List.exists_of_findSome?_eq_some h
  obtain ⟨matched, hsaid, hperm⟩ := Pattern.extract?_eq_some h
  exact ⟨matched, Substitution.makes_of_says hsaid, hperm⟩

end RuleSet

/-! ## Steps -/

namespace OptimizerState

variable {rules : RuleSet} {s t u : OptimizerState}

/-- The state with all that its gadgets newly imply. -/
def grown (rules : RuleSet) (s : OptimizerState) : OptimizerState :=
  s.add (s.fresh rules)

theorem mem_fresh {g : Gadget} (h : g ∈ s.fresh rules) :
    ∃ matched, Implication.Draws matched g ∧ matched ⊆ s.current :=
  RuleSet.mem_implied (List.mem_of_mem_filter (GadgetSet.mem_ofList h))

theorem substitute?_eq_some (h : s.substitute? rules = some t) :
    ∃ matched new others, Substitution.Makes matched new ∧
      s.current.Perm (matched ++ others) ∧ t = add ⟨others, s.seen⟩ new := by
  obtain ⟨⟨new, others⟩, hsub, rfl⟩ := Option.map_eq_some_iff.1 h
  obtain ⟨matched, hmakes, hperm⟩ := RuleSet.substitution?_eq_some hsub
  exact ⟨matched, new, others, hmakes, hperm, rfl⟩

theorem step_eq_contradiction {error : Diagnostic} (h : s.step rules = .contradiction error) :
    rules.contradiction? s.current = some error := by
  unfold step at h
  split at h
  case h_1 e he => simpa [he] using h
  case h_2 =>
    dsimp only at h
    split at h
    · cases h
    · split_ifs at h

/-- What it takes for a step to be the last: no rule of any kind has anything to say that is new. -/
theorem step_stable_cases {gadgets : List Gadget} (h : s.step rules = .stable gadgets) :
    rules.contradiction? s.current = none ∧ (s.grown rules).substitute? rules = none ∧
      (s.grown rules).current.length ≤ s.current.length ∧ (s.grown rules).current = gadgets := by
  unfold step at h
  split at h
  · cases h
  case h_2 hcontra =>
    dsimp only at h
    split at h
    · cases h
    case h_2 hsub =>
      split_ifs at h with hlength
      exact ⟨hcontra, hsub, Nat.not_lt.1 hlength, OptimizerStep.stable.inj h⟩

theorem step_eq_stable {gadgets : List Gadget} (h : s.step rules = .stable gadgets) :
    (s.grown rules).current = gadgets :=
  (step_stable_cases h).2.2.2

/-- A step that is not the last makes a substitution, or else something was implied. -/
theorem step_next_cases (h : s.step rules = .next t) :
    (s.grown rules).substitute? rules = some t ∨
      (s.grown rules).substitute? rules = none ∧
        s.current.length < (s.grown rules).current.length ∧ s.grown rules = t := by
  unfold step at h
  split at h
  · cases h
  · dsimp only at h
    split at h
    case h_1 t' hsub => exact .inl (by simpa [grown, hsub] using h)
    case h_2 hsub =>
      split_ifs at h with hlength
      exact .inr ⟨hsub, hlength, OptimizerStep.next.inj h⟩

theorem step_eq_next (h : s.step rules = .next t) :
    (s.grown rules).substitute? rules = some t ∨ s.grown rules = t :=
  (step_next_cases h).imp_right fun hgrown => hgrown.2.2

/-- Steps lead from one state to another. -/
inductive Reaches (rules : RuleSet) : OptimizerState → OptimizerState → Prop
  | refl (s : OptimizerState) : Reaches rules s s
  | head {s t u : OptimizerState} (h : s.step rules = .next t) (ht : Reaches rules t u) :
    Reaches rules s u

/-- What growing and substituting keep is kept by a run. -/
theorem Reaches.keeps {P : OptimizerState → Prop} (hgrown : ∀ s, P s → P (s.grown rules))
    (hsubstitute : ∀ s t, P s → s.substitute? rules = some t → P t) (h : Reaches rules s t)
    (hs : P s) : P t := by
  induction h with
  | refl s => exact hs
  | head h _ ih =>
    refine ih ?_
    rcases step_eq_next h with h | rfl
    · exact hsubstitute _ _ (hgrown _ hs) h
    · exact hgrown _ hs

/-- The step that ends a run with an outcome. -/
def lastStep : Except Diagnostic (List Gadget) → OptimizerStep
  | .ok gadgets => .stable gadgets
  | .error error => .contradiction error

theorem run?_eq_some {cap : Nat} {outcome : Except Diagnostic (List Gadget)}
    (h : run? rules cap s = some outcome) :
    ∃ t, Reaches rules s t ∧ t.step rules = lastStep outcome := by
  induction cap generalizing s with
  | zero => simp [run?] at h
  | succ cap ih =>
    rw [run?] at h
    cases hs : s.step rules with
    | contradiction error =>
      rw [hs] at h
      cases h
      exact ⟨s, .refl s, hs⟩
    | stable gadgets =>
      rw [hs] at h
      cases h
      exact ⟨s, .refl s, hs⟩
    | next t =>
      rw [hs] at h
      obtain ⟨u, hu, ho⟩ := ih h
      exact ⟨u, .head hs hu, ho⟩

end OptimizerState

namespace Optimizer

variable {rules : RuleSet} {cap : Nat} {gadgets : List Gadget}

theorem optimize_eq_ok {out : List Gadget} (h : optimize rules cap gadgets = .ok out) :
    ∃ t, OptimizerState.Reaches rules (.initial gadgets) t ∧ t.step rules = .stable out := by
  unfold optimize at h
  split at h
  case h_1 outcome hrun =>
    subst h
    exact OptimizerState.run?_eq_some hrun
  case h_2 => cases h

/-- A contradiction at hand ends every run at once. -/
theorem contradiction?_of_optimize {out : List Gadget}
    (h : optimize rules cap gadgets = .ok out) :
    rules.contradiction? (GadgetSet.ofList gadgets) = none := by
  obtain ⟨t, hreach, hstable⟩ := optimize_eq_ok h
  have hstep : ∀ error, (OptimizerState.initial gadgets).step rules ≠ .contradiction error := by
    intro error herror
    cases hreach with
    | refl => simp [herror] at hstable
    | head hnext _ => simp [herror] at hnext
  change rules.contradiction? (OptimizerState.initial gadgets).current = none
  cases hc : rules.contradiction? (OptimizerState.initial gadgets).current with
  | none => rfl
  | some error =>
    refine absurd ?_ (hstep error)
    unfold OptimizerState.step
    rw [hc]

theorem optimize_eq_error {error : Diagnostic} (h : optimize rules cap gadgets = .error error) :
    error = notConverged cap ∨ ∃ t, OptimizerState.Reaches rules (.initial gadgets) t ∧
      t.step rules = .contradiction error := by
  unfold optimize at h
  split at h
  case h_1 outcome hrun =>
    subst h
    exact .inr (OptimizerState.run?_eq_some hrun)
  case h_2 => exact .inl (by simpa using h.symm)

end Optimizer

/-! ## Properties of gadgets along a run -/

/-- A property of gadgets that rules pass on from the gadgets they match to those they build. -/
structure KeptByRules (P : Gadget → Prop) : Prop where
  draws : ∀ {matched g}, Implication.Draws matched g → (∀ m ∈ matched, P m) → P g
  makes : ∀ {matched new}, Substitution.Makes matched new → (∀ m ∈ matched, P m) → ∀ g ∈ new, P g

namespace KeptByRules

variable {P Q : Gadget → Prop} {rules : RuleSet} {s t : OptimizerState}

theorem and (hP : KeptByRules P) (hQ : KeptByRules Q) : KeptByRules fun g => P g ∧ Q g where
  draws h hm := ⟨hP.draws h fun m hmem => (hm m hmem).1, hQ.draws h fun m hmem => (hm m hmem).2⟩
  makes h hm g hg :=
    ⟨hP.makes h (fun m hmem => (hm m hmem).1) g hg, hQ.makes h (fun m hmem => (hm m hmem).2) g hg⟩

theorem all : KeptByRules fun _ => True :=
  ⟨fun _ _ => trivial, fun _ _ _ _ => trivial⟩

/-- Rules check nothing and still keep every contract. -/
theorem check : KeptByRules fun g => g.check = .ok () :=
  ⟨fun h hm => h.check hm, fun h hm => h.check hm⟩

/-- Rules bring in no variables. -/
theorem vars (Q : Variable → Prop) : KeptByRules fun g => ∀ v ∈ g.vars, Q v where
  draws h hm v hv := by
    obtain ⟨m, hmem, hv⟩ := h.vars v hv
    exact hm m hmem v hv
  makes h hm g hg v hv := by
    obtain ⟨m, hmem, hv⟩ := h.vars g hg v hv
    exact hm m hmem v hv

theorem initial {gadgets : List Gadget} (h : ∀ g ∈ gadgets, P g) :
    ∀ g ∈ (OptimizerState.initial gadgets).current, P g :=
  fun g hg => h g (GadgetSet.mem_ofList hg)

theorem grown (hP : KeptByRules P) (hs : ∀ g ∈ s.current, P g) :
    ∀ g ∈ (s.grown rules).current, P g := by
  intro g hg
  rcases GadgetSet.mem_addAll hg with hg | hg
  · exact hs g hg
  · obtain ⟨matched, hdraws, hsub⟩ := OptimizerState.mem_fresh hg
    exact hP.draws hdraws fun m hm => hs m (hsub hm)

theorem substitute? (hP : KeptByRules P) (h : s.substitute? rules = some t)
    (hs : ∀ g ∈ s.current, P g) : ∀ g ∈ t.current, P g := by
  obtain ⟨matched, new, others, hmakes, hperm, rfl⟩ := OptimizerState.substitute?_eq_some h
  have hall : ∀ m ∈ matched ++ others, P m := fun m hm => hs m (hperm.symm.subset hm)
  intro g hg
  rcases GadgetSet.mem_addAll hg with hg | hg
  · exact hall g (List.mem_append_right _ hg)
  · exact hP.makes hmakes (fun m hm => hall m (List.mem_append_left _ hm)) g hg

theorem step (hP : KeptByRules P) (h : s.step rules = .next t) (hs : ∀ g ∈ s.current, P g) :
    ∀ g ∈ t.current, P g := by
  rcases OptimizerState.step_eq_next h with h | rfl
  · exact hP.substitute? h (hP.grown hs)
  · exact hP.grown hs

theorem reaches (hP : KeptByRules P) (h : OptimizerState.Reaches rules s t)
    (hs : ∀ g ∈ s.current, P g) : ∀ g ∈ t.current, P g := by
  exact h.keeps (P := fun s => ∀ g ∈ s.current, P g) (fun _ hs => hP.grown hs)
    (fun _ _ hs ht => hP.substitute? ht hs) hs

/-- **A property that rules keep holds of the result** if it holds of what is optimized. -/
theorem optimize (hP : KeptByRules P) {cap : Nat} {gadgets out : List Gadget}
    (h : Optimizer.optimize rules cap gadgets = .ok out) (hg : ∀ g ∈ gadgets, P g) :
    ∀ g ∈ out, P g := by
  obtain ⟨t, hreach, hstable⟩ := Optimizer.optimize_eq_ok h
  rw [← OptimizerState.step_eq_stable hstable]
  exact hP.grown (hP.reaches hreach (initial hg))

end KeptByRules

end Attestation
