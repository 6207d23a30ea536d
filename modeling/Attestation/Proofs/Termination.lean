import Attestation.Proofs.OptimizerRun

/-!
# The optimizer comes to an end by itself

Whatever gadgets it is given, checked or not, and whatever rules are selected, there is a number of
steps after which the optimizer is done, and allowing more steps changes nothing
(`Optimizer.optimize_settles`). Two things bound a run.

* Rules bring in no variables and build only equalities and bounds, so all gadgets of a run are
  among finitely many (`derivable`, `KeptByRules.derivable`). What was ever at hand is never implied
  again: every implication uses one of them up.
* A substitution puts in less than it takes out (`Substitution.Makes.totalWeight_lt`).

Implications add weight, but a gadget that is yet to be seen counts for more than any gadget weighs
(`OptimizerState.potential`), so that every step makes the potential smaller
(`OptimizerState.potential_step`). It starts at no more than three times the number of derivable
gadgets, which is a number of steps that suffices for all rule sets (`Optimizer.stepBound`).
-/

namespace Attestation

/-! ## Sets without repetition -/

namespace GadgetSet

variable {set : GadgetSet} {g : Gadget} {gs : List Gadget}

/-- No gadget is the same as one before it. -/
def Distinct (set : GadgetSet) : Prop :=
  set.Pairwise fun g h => g.same h = false

theorem has_eq_false_iff : set.has g = false ↔ ∀ h ∈ set, h.same g = false := by
  simp [has]

theorem Distinct.nodup (h : set.Distinct) : set.Nodup := by
  refine h.imp fun {a b} hab heq => ?_
  rw [heq, Gadget.same_refl] at hab
  cases hab

theorem Distinct.add (h : set.Distinct) : (set.add g).Distinct := by
  unfold GadgetSet.add
  split_ifs with hhas
  · exact h
  · refine List.pairwise_append.2 ⟨h, List.pairwise_singleton _ _, fun a ha b hb => ?_⟩
    rw [List.mem_singleton.1 hb]
    exact has_eq_false_iff.1 (Bool.eq_false_iff.2 hhas) a ha

theorem Distinct.addAll (h : set.Distinct) : (set.addAll gs).Distinct := by
  induction gs generalizing set with
  | nil => exact h
  | cons g gs ih => exact ih h.add

theorem distinct_ofList (gs : List Gadget) : (ofList gs).Distinct :=
  Distinct.addAll List.Pairwise.nil

/-- Gadgets that repeat nothing are added as they are. -/
theorem addAll_eq_append (h : Distinct (set ++ gs)) : set.addAll gs = set ++ gs := by
  induction gs generalizing set with
  | nil => exact (List.append_nil set).symm
  | cons g gs ih =>
    have hnew : set.has g = false := by
      refine has_eq_false_iff.2 fun k hk => ?_
      exact (List.pairwise_append.1 h).2.2 k hk g List.mem_cons_self
    have hadd : set.add g = set ++ [g] := by simp [add, hnew]
    change (set.add g).addAll gs = _
    rw [hadd, ih (by simpa using h), List.append_assoc, List.singleton_append]

/-- Adding keeps what is there in its place. -/
theorem exists_addAll_eq_append : ∃ extra, set.addAll gs = set ++ extra := by
  induction gs generalizing set with
  | nil => exact ⟨[], (List.append_nil set).symm⟩
  | cons g gs ih =>
    change ∃ extra, (set.add g).addAll gs = set ++ extra
    obtain ⟨extra, hextra⟩ := @ih (set.add g)
    rw [hextra, add]
    split_ifs
    · exact ⟨extra, rfl⟩
    · exact ⟨g :: extra, by simp⟩

theorem length_le_addAll : set.length ≤ (set.addAll gs).length := by
  obtain ⟨extra, hextra⟩ := @exists_addAll_eq_append set gs
  rw [hextra, List.length_append]
  exact Nat.le_add_right _ _

end GadgetSet

/-! ## Weight -/

/-- How much there is to substitute in a gadget. What is made of bounds or of a set may be
substituted again, as an equality. -/
def Gadget.weight : Gadget → Nat
  | .equality _ => 1
  | .inequality _ => 1
  | .bounds _ => 2
  | .membership _ => 2
  | .mimcHash _ => 0
  | .merkleTree _ => 0

/-- The weight of gadgets together. -/
def totalWeight : List Gadget → Nat
  | [] => 0
  | g :: rest => g.weight + totalWeight rest

theorem totalWeight_cons (g : Gadget) (gadgets : List Gadget) :
    totalWeight (g :: gadgets) = g.weight + totalWeight gadgets :=
  rfl

theorem totalWeight_append (l l' : List Gadget) :
    totalWeight (l ++ l') = totalWeight l + totalWeight l' := by
  induction l with
  | nil => exact (Nat.zero_add _).symm
  | cons g rest ih => rw [List.cons_append, totalWeight_cons, totalWeight_cons, ih, Nat.add_assoc]

theorem totalWeight_of_perm {l l' : List Gadget} (h : l.Perm l') :
    totalWeight l = totalWeight l' := by
  induction h with
  | nil => rfl
  | cons g _ ih => rw [totalWeight_cons, totalWeight_cons, ih]
  | swap g h rest =>
    simp only [totalWeight_cons]
    omega
  | trans _ _ ih ih' => exact ih.trans ih'

theorem totalWeight_le (gadgets : List Gadget) : totalWeight gadgets ≤ 2 * gadgets.length := by
  induction gadgets with
  | nil => simp [totalWeight]
  | cons g rest ih =>
    have hg : g.weight ≤ 2 := by cases g <;> simp [Gadget.weight]
    rw [totalWeight_cons, List.length_cons]
    omega

theorem totalWeight_addAll_le (set : GadgetSet) (gs : List Gadget) :
    totalWeight (set.addAll gs) ≤ totalWeight set + totalWeight gs := by
  induction gs generalizing set with
  | nil => exact Nat.le_add_right _ _
  | cons g gs ih =>
    have hadd : totalWeight (set.add g) ≤ totalWeight set + g.weight := by
      unfold GadgetSet.add
      split_ifs
      · omega
      · rw [totalWeight_append, totalWeight_cons]
        simp [totalWeight]
    have hrest := ih (set.add g)
    change totalWeight ((set.add g).addAll gs) ≤ _
    rw [totalWeight_cons]
    omega

/-- **A substitution puts in less than it takes out.** -/
theorem Substitution.Makes.totalWeight_lt {matched new : List Gadget} (h : Makes matched new) :
    totalWeight new < totalWeight matched := by
  cases h with
  | point h =>
    obtain ⟨n, -, -, rfl⟩ := Bounds.point?_eq_some h
    simp [totalWeight, Gadget.weight]
  | touch hperm h =>
    rw [totalWeight_of_perm hperm]
    obtain ⟨_, _, _, _, -, ⟨-, rfl⟩ | ⟨-, rfl⟩⟩ := Bounds.touch?_eq_some h <;>
      simp [totalWeight, Gadget.weight]
  | intersect hperm h =>
    rw [totalWeight_of_perm hperm]
    obtain ⟨_, _, _, _, -, -, -, rfl⟩ := Bounds.intersect?_eq_some h
    simp [totalWeight, Gadget.weight]
  | tautology h =>
    obtain ⟨-, rfl⟩ := Equality.trivial?_eq_some h
    simp [totalWeight, Gadget.weight]
  | distinct h =>
    obtain ⟨-, rfl⟩ := Inequality.trivial?_eq_some h
    simp [totalWeight, Gadget.weight]
  | single h =>
    obtain ⟨e, -, rfl⟩ := Membership.single?_eq_some h
    simp [totalWeight, Gadget.weight]

/-! ## The gadgets that a run can come across -/

/-- The gadgets of the kinds that rules build. -/
inductive Gadget.Built : Gadget → Prop
  | equality (e : Equality) : Built (.equality e)
  | bounds (b : Bounds) : Built (.bounds b)

theorem Implication.Draws.built {matched : List Gadget} {g : Gadget} (h : Draws matched g) :
    g.Built := by
  cases h with
  | carry hperm h =>
    obtain ⟨s, w, -, -, -, rfl⟩ := Equality.carry?_eq_some h
    exact .bounds _
  | chain hperm h =>
    obtain ⟨s, t, x, y, -, -, -, -, rfl⟩ := Equality.chain?_eq_some h
    exact .equality _

theorem Substitution.Makes.built {matched new : List Gadget} (h : Makes matched new) :
    ∀ g ∈ new, g.Built := by
  cases h with
  | point h =>
    obtain ⟨n, -, -, rfl⟩ := Bounds.point?_eq_some h
    exact List.forall_mem_singleton.2 (.equality _)
  | touch hperm h =>
    obtain ⟨_, _, _, _, -, ⟨-, rfl⟩ | ⟨-, rfl⟩⟩ := Bounds.touch?_eq_some h
    · exact List.forall_mem_singleton.2 (.equality _)
    · exact List.forall_mem_singleton.2 (.equality _)
  | intersect hperm h =>
    obtain ⟨_, _, _, _, -, -, -, rfl⟩ := Bounds.intersect?_eq_some h
    exact List.forall_mem_singleton.2 (.bounds _)
  | tautology h =>
    obtain ⟨-, rfl⟩ := Equality.trivial?_eq_some h
    exact fun g hg => absurd hg List.not_mem_nil
  | distinct h =>
    obtain ⟨-, rfl⟩ := Inequality.trivial?_eq_some h
    exact fun g hg => absurd hg List.not_mem_nil
  | single h =>
    obtain ⟨e, -, rfl⟩ := Membership.single?_eq_some h
    exact List.forall_mem_singleton.2 (.equality _)

/-- The given gadgets, and all equalities and bounds over their variables. -/
def derivable (gadgets : List Gadget) : List Gadget :=
  let vars := gadgets.flatMap Gadget.vars
  gadgets ++ (vars.flatMap fun x => vars.map fun y => .equality ⟨x, y⟩) ++
    vars.flatMap fun v => vars.flatMap fun lo => vars.map fun hi => .bounds ⟨v, lo, hi⟩

section

variable {gadgets : List Gadget} {g : Gadget}

theorem mem_derivable (h : g ∈ gadgets) : g ∈ derivable gadgets :=
  List.mem_append_left _ (List.mem_append_left _ h)

theorem Gadget.Built.mem_derivable (hg : g.Built)
    (hvars : ∀ v ∈ g.vars, v ∈ gadgets.flatMap Gadget.vars) : g ∈ derivable gadgets := by
  cases hg with
  | equality e =>
    have hl : e.left ∈ gadgets.flatMap Gadget.vars := hvars _ (by simp [Gadget.vars])
    have hr : e.right ∈ gadgets.flatMap Gadget.vars := hvars _ (by simp [Gadget.vars])
    refine List.mem_append_left _ (List.mem_append_right _ ?_)
    exact List.mem_flatMap.2 ⟨e.left, hl, List.mem_map.2 ⟨e.right, hr, rfl⟩⟩
  | bounds b =>
    have hv : b.value ∈ gadgets.flatMap Gadget.vars := hvars _ (by simp [Gadget.vars])
    have hlo : b.min ∈ gadgets.flatMap Gadget.vars := hvars _ (by simp [Gadget.vars])
    have hhi : b.max ∈ gadgets.flatMap Gadget.vars := hvars _ (by simp [Gadget.vars])
    refine List.mem_append_right _ (List.mem_flatMap.2 ⟨b.value, hv, ?_⟩)
    exact List.mem_flatMap.2 ⟨b.min, hlo, List.mem_map.2 ⟨b.max, hhi, rfl⟩⟩

theorem vars_of_mem_derivable (hg : g ∈ derivable gadgets) :
    ∀ v ∈ g.vars, v ∈ gadgets.flatMap Gadget.vars := by
  intro v hv
  rcases List.mem_append.1 hg with hg | hg
  · rcases List.mem_append.1 hg with hg | hg
    · exact List.mem_flatMap.2 ⟨g, hg, hv⟩
    · obtain ⟨x, hx, hg⟩ := List.mem_flatMap.1 hg
      obtain ⟨y, hy, rfl⟩ := List.mem_map.1 hg
      simp only [Gadget.vars, List.mem_cons, List.not_mem_nil, or_false] at hv
      rcases hv with rfl | rfl
      · exact hx
      · exact hy
  · obtain ⟨w, hw, hg⟩ := List.mem_flatMap.1 hg
    obtain ⟨lo, hlo, hg⟩ := List.mem_flatMap.1 hg
    obtain ⟨hi, hhi, rfl⟩ := List.mem_map.1 hg
    simp only [Gadget.vars, List.mem_cons, List.not_mem_nil, or_false] at hv
    rcases hv with rfl | rfl | rfl
    · exact hw
    · exact hlo
    · exact hhi

end

/-- Rules do not lead out of the derivable gadgets. -/
theorem KeptByRules.derivable (gadgets : List Gadget) :
    KeptByRules fun g => g ∈ derivable gadgets where
  draws h hm := by
    refine h.built.mem_derivable fun v hv => ?_
    obtain ⟨m, hmem, hv⟩ := h.vars v hv
    exact vars_of_mem_derivable (hm m hmem) v hv
  makes h hm g hg := by
    refine (h.built g hg).mem_derivable fun v hv => ?_
    obtain ⟨m, hmem, hv⟩ := h.vars g hg v hv
    exact vars_of_mem_derivable (hm m hmem) v hv

/-! ## Steps -/

namespace OptimizerState

variable {rules : RuleSet} {s t : OptimizerState} {pool : List Gadget}

/-- All gadgets of a state are of a pool, and none is recorded twice. -/
structure Within (pool : List Gadget) (s : OptimizerState) : Prop where
  current : ∀ g ∈ s.current, g ∈ pool
  seen : ∀ g ∈ s.seen, g ∈ pool
  distinct : s.seen.Distinct

theorem Within.length_seen_le (h : s.Within pool) : s.seen.length ≤ pool.length :=
  (List.subperm_of_subset h.distinct.nodup fun g hg => h.seen g hg).length_le

theorem within_initial {gadgets : List Gadget} (h : ∀ g ∈ gadgets, g ∈ pool) :
    (initial gadgets).Within pool where
  current g hg := h g (GadgetSet.mem_ofList hg)
  seen g hg := h g (GadgetSet.mem_ofList hg)
  distinct := GadgetSet.distinct_ofList gadgets

theorem Within.grown (hU : KeptByRules fun g => g ∈ pool) (h : s.Within pool) :
    (s.grown rules).Within pool where
  current := hU.grown h.current
  seen g hg := by
    rcases GadgetSet.mem_addAll hg with hg | hg
    · exact h.seen g hg
    · obtain ⟨matched, hdraws, hsub⟩ := mem_fresh hg
      exact hU.draws hdraws fun m hm => h.current m (hsub hm)
  distinct := h.distinct.addAll

theorem Within.substitute? (hU : KeptByRules fun g => g ∈ pool) (h : s.Within pool)
    (ht : s.substitute? rules = some t) : t.Within pool := by
  obtain ⟨matched, new, others, hmakes, hperm, rfl⟩ := substitute?_eq_some ht
  refine ⟨hU.substitute? ht h.current, fun g hg => ?_, h.distinct.addAll⟩
  rcases GadgetSet.mem_addAll hg with hg | hg
  · exact h.seen g hg
  · have hm : ∀ m ∈ matched, m ∈ pool :=
      fun m hm => h.current m (hperm.symm.subset (List.mem_append_left _ hm))
    exact hU.makes hmakes hm g hg

theorem Within.step (hU : KeptByRules fun g => g ∈ pool) (h : s.Within pool)
    (ht : s.step rules = .next t) : t.Within pool := by
  rcases step_eq_next ht with ht | rfl
  · exact (h.grown hU).substitute? hU ht
  · exact h.grown hU

/-- What is newly implied is all recorded. -/
theorem seen_grown (h : s.seen.Distinct) : (s.grown rules).seen = s.seen ++ s.fresh rules := by
  refine GadgetSet.addAll_eq_append (List.pairwise_append.2
    ⟨h, GadgetSet.distinct_ofList _, fun a ha b hb => ?_⟩)
  have hnew := (List.mem_filter.1 (GadgetSet.mem_ofList hb)).2
  exact GadgetSet.has_eq_false_iff.1 (by simpa using hnew) a ha

/-- What a run can still do: derive gadgets that it has not seen, and substitute. A gadget that is
derived weighs two at most. -/
def potential (pool : List Gadget) (s : OptimizerState) : Nat :=
  3 * (pool.length - s.seen.length) + totalWeight s.current

theorem potential_grown (hU : KeptByRules fun g => g ∈ pool) (h : s.Within pool) :
    (s.grown rules).potential pool + (s.fresh rules).length ≤ s.potential pool := by
  have hseen : (s.grown rules).seen.length = s.seen.length + (s.fresh rules).length := by
    rw [seen_grown h.distinct, List.length_append]
  have hroom : (s.grown rules).seen.length ≤ pool.length := (h.grown hU).length_seen_le
  have hweight : totalWeight (s.grown rules).current ≤
      totalWeight s.current + totalWeight (s.fresh rules) := totalWeight_addAll_le _ _
  have hfresh := totalWeight_le (s.fresh rules)
  unfold potential
  omega

theorem potential_substitute? (h : s.substitute? rules = some t) :
    t.potential pool < s.potential pool := by
  obtain ⟨matched, new, others, hmakes, hperm, rfl⟩ := substitute?_eq_some h
  have hseen : s.seen.length ≤ (s.seen.addAll new).length := GadgetSet.length_le_addAll
  have hweight := totalWeight_addAll_le others new
  have hlt := hmakes.totalWeight_lt
  have hs : totalWeight s.current = totalWeight matched + totalWeight others := by
    rw [totalWeight_of_perm hperm, totalWeight_append]
  change 3 * (pool.length - (s.seen.addAll new).length) +
    totalWeight (GadgetSet.addAll others new) < 3 * (pool.length - s.seen.length) + _
  omega

/-- **Every step makes the potential smaller.** -/
theorem potential_step (hU : KeptByRules fun g => g ∈ pool) (h : s.Within pool)
    (ht : s.step rules = .next t) : t.potential pool < s.potential pool := by
  have hgrown : (s.grown rules).potential pool + (s.fresh rules).length ≤ s.potential pool :=
    potential_grown hU h
  rcases step_next_cases ht with hsub | ⟨-, hlength, rfl⟩
  · have hlt : t.potential pool < (s.grown rules).potential pool := potential_substitute? hsub
    omega
  · -- the step added something, so something was fresh
    have hfresh : s.fresh rules ≠ [] := by
      intro hnil
      unfold OptimizerState.grown at hlength
      rw [hnil] at hlength
      exact Nat.lt_irrefl _ hlength
    have hpos := List.length_pos_of_ne_nil hfresh
    omega

/-! ## Runs -/

theorem exists_run? (hU : KeptByRules fun g => g ∈ pool) {cap : Nat} (h : s.Within pool)
    (hcap : s.potential pool < cap) : ∃ outcome, run? rules cap s = some outcome := by
  induction cap generalizing s with
  | zero => exact absurd hcap (Nat.not_lt_zero _)
  | succ cap ih =>
    rw [run?]
    cases hs : s.step rules with
    | contradiction error => exact ⟨_, rfl⟩
    | stable gadgets => exact ⟨_, rfl⟩
    | next t =>
      have hlt := potential_step hU h hs
      exact ih (h.step hU hs) (by omega)

/-- A run that comes to an end is not changed by allowing more steps. -/
theorem run?_mono {cap cap' : Nat} {outcome : Except Diagnostic (List Gadget)}
    (h : run? rules cap s = some outcome) (hle : cap ≤ cap') :
    run? rules cap' s = some outcome := by
  induction cap generalizing s cap' with
  | zero => cases h
  | succ cap ih =>
    obtain ⟨extra, rfl⟩ : ∃ extra, cap' = extra + 1 := ⟨cap' - 1, by omega⟩
    rw [run?] at h ⊢
    cases hs : s.step rules with
    | contradiction error => rw [hs] at h; exact h
    | stable gadgets => rw [hs] at h; exact h
    | next t =>
      rw [hs] at h
      exact ih h (by omega)

end OptimizerState

/-! ## Outcomes -/

/-- The error for a contradiction says that it is one. -/
theorem Contradiction.Finds.kind {matched : List Gadget} {error : Diagnostic}
    (h : Finds matched error) : error.kind = .contradiction := by
  cases h with
  | empty h =>
    unfold Bounds.empty? at h
    split at h
    · split_ifs at h
      cases h
      rfl
    · cases h
  | disjoint hperm h =>
    unfold Bounds.disjoint? at h
    split_ifs at h
    split at h
    · split_ifs at h <;> cases h <;> rfl
    · cases h
  | unequal h =>
    unfold Equality.unequal? at h
    split_ifs at h
    cases h
    rfl
  | reflexive h =>
    unfold Inequality.reflexive? at h
    split_ifs at h
    cases h
    rfl
  | denied hperm h =>
    unfold Equality.denied? at h
    split_ifs at h
    cases h
    rfl
  | excluded h =>
    unfold Membership.excluded? at h
    split_ifs at h
    cases h
    rfl
  | ambiguous hperm h =>
    unfold MimcHash.ambiguous? at h
    split_ifs at h
    cases h
    rfl

namespace Optimizer

variable {rules : RuleSet} {cap : Nat} {gadgets : List Gadget}

theorem optimize_eq_of_run? {outcome : Except Diagnostic (List Gadget)}
    (h : OptimizerState.run? rules cap (.initial gadgets) = some outcome) :
    optimize rules cap gadgets = outcome := by
  unfold optimize
  rw [h]

/-- A run that comes to an end does not report that it did not. -/
theorem ne_notConverged_of_run? {s : OptimizerState} {outcome : Except Diagnostic (List Gadget)}
    (h : OptimizerState.run? rules cap s = some outcome) (cap' : Nat) :
    outcome ≠ .error (notConverged cap') := by
  rintro rfl
  obtain ⟨t, -, hstep⟩ := OptimizerState.run?_eq_some h
  obtain ⟨matched, hfinds, -⟩ :=
    RuleSet.contradiction?_eq_some (OptimizerState.step_eq_contradiction hstep)
  cases hfinds.kind

/-- A run that is not cut short gives a result or finds a contradiction. -/
theorem ok_or_contradiction (hcap : optimize rules cap gadgets ≠ .error (notConverged cap)) :
    (∃ out, optimize rules cap gadgets = .ok out) ∨
      ∃ error, optimize rules cap gadgets = .error error ∧ error.kind = .contradiction := by
  cases h : optimize rules cap gadgets with
  | ok out => exact .inl ⟨out, rfl⟩
  | error error =>
    rcases optimize_eq_error h with rfl | ⟨t, -, hstep⟩
    · exact absurd h hcap
    · obtain ⟨matched, hfinds, -⟩ :=
        RuleSet.contradiction?_eq_some (OptimizerState.step_eq_contradiction hstep)
      exact .inr ⟨error, rfl, hfinds.kind⟩

theorem run?_of_optimize_eq_ok {out : List Gadget} (h : optimize rules cap gadgets = .ok out) :
    OptimizerState.run? rules cap (.initial gadgets) = some (.ok out) := by
  unfold optimize at h
  split at h
  case h_1 outcome hrun => rw [hrun, h]
  case h_2 => cases h

/-- All caps that suffice give the same result. -/
theorem optimize_eq_ok_unique {cap' : Nat} {out out' : List Gadget}
    (h : optimize rules cap gadgets = .ok out) (h' : optimize rules cap' gadgets = .ok out') :
    out = out' := by
  have hrun := OptimizerState.run?_mono (run?_of_optimize_eq_ok h) (Nat.le_max_left cap cap')
  have hrun' := OptimizerState.run?_mono (run?_of_optimize_eq_ok h') (Nat.le_max_right cap cap')
  rw [hrun] at hrun'
  exact Except.ok.inj (Option.some.inj hrun')

/-- A number of steps that suffices for given gadgets, whatever the rules. -/
def stepBound (gadgets : List Gadget) : Nat :=
  3 * (derivable gadgets).length + 1

theorem exists_run?_stepBound (rules : RuleSet) (gadgets : List Gadget) :
    ∃ outcome, OptimizerState.run? rules (stepBound gadgets) (.initial gadgets) =
      some outcome := by
  have hwithin : (OptimizerState.initial gadgets).Within (derivable gadgets) :=
    OptimizerState.within_initial fun g hg => mem_derivable hg
  refine OptimizerState.exists_run? (KeptByRules.derivable gadgets) hwithin ?_
  -- the gadgets at hand are all seen, and none weighs three
  have hroom := hwithin.length_seen_le
  have hweight : totalWeight (GadgetSet.ofList gadgets) ≤ 2 * (GadgetSet.ofList gadgets).length :=
    totalWeight_le _
  change (GadgetSet.ofList gadgets).length ≤ (derivable gadgets).length at hroom
  change 3 * ((derivable gadgets).length - (GadgetSet.ofList gadgets).length) +
    totalWeight (GadgetSet.ofList gadgets) < stepBound gadgets
  unfold stepBound
  omega

/-- **The optimizer comes to an end by itself.** For any gadgets there is a number of steps such
that, whatever rules are selected, every cap that allows as many gives one and the same outcome, and
this is not the error for a cap that does not suffice. -/
theorem optimize_settles (gadgets : List Gadget) :
    ∃ N, ∀ rules : RuleSet, ∃ outcome,
      (∀ cap, outcome ≠ .error (notConverged cap)) ∧
      ∀ cap, N ≤ cap → optimize rules cap gadgets = outcome := by
  refine ⟨stepBound gadgets, fun rules => ?_⟩
  obtain ⟨outcome, hrun⟩ := exists_run?_stepBound rules gadgets
  refine ⟨outcome, ne_notConverged_of_run? hrun, fun cap hcap => ?_⟩
  exact optimize_eq_of_run? (OptimizerState.run?_mono hrun hcap)

end Optimizer

end Attestation
