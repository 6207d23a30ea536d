import Attestation.Proofs.Faithfulness
import Attestation.Proofs.ResolutionErrors
import Attestation.Proofs.Termination

/-!
# Where errors point

Errors of resolving are put down to a place. The optimizer is not told where it is: a contradiction
points at the variables it is about, and the limits that stand for bounds left out are written
nowhere. That there is always a place all the same is an invariant of the run. Variables of an
equality that are written nowhere are the constant `Bounds.least` (`Gadget.Anchored`), so two of
them never differ; and a limit is never the end at which ranges are apart, for all ranges lie within
the limits. The invariant rests on the order of substitutions. The upper limit would come into an
equality if a range met another one there, but then that one is a point, and points go first
(`RuleSet.substitution?_standard`).
-/

namespace Attestation

open Syntax
open Request (statementAbout fieldOf number noSpan)

/-! ## Variables that are written nowhere -/

/-- The variable is written somewhere, or it is a limit. -/
def Variable.WrittenOr (limit : Int) (v : Variable) : Prop :=
  v.position.isSome = true ∨ v.literal = .integer limit

theorem Variable.WrittenOr.integer?_eq {limit n : Int} {v : Variable} (h : v.WrittenOr limit)
    (hv : v.integer? = some n) (hne : n ≠ limit) : v.position.isSome = true := by
  rcases h with h | h
  · exact h
  · rw [(Variable.integer?_eq_some_iff.1 hv).2] at h
    exact absurd (Literal.integer.inj h) hne

/-- All variables are written somewhere, but for limits in bounds and the lower one in equalities. -/
def Gadget.Anchored : Gadget → Prop
  | equality g => g.left.WrittenOr Bounds.least ∧ g.right.WrittenOr Bounds.least
  | bounds g => g.value.WrittenOr Bounds.least ∧ g.min.WrittenOr Bounds.least ∧
      g.max.WrittenOr Bounds.greatest
  | g => ∀ v ∈ g.vars, v.position.isSome = true

theorem Equality.Joins.writtenOr {e : Equality} {v w : Variable} (h : e.Joins v w)
    (he : (Gadget.equality e).Anchored) : w.WrittenOr Bounds.least := by
  rcases h with rfl | rfl
  · exact he.2
  · exact he.1

/-! ## Resolved gadgets -/

namespace Scope

variable {scope : Scope}

/-- Operands are written somewhere. -/
theorem isSome_position_of_operand {subjects : Table Subject} {operand : Operand} {v : Variable}
    (h : scope.operand subjects operand = .ok v) : v.position.isSome = true := by
  unfold Scope.operand at h
  cases operand with
  | identifier name selector span =>
    dsimp only at h
    split at h
    · cases h
    · obtain ⟨type, literal, -, rfl⟩ := Subject.resolve_eq_ok h
      rfl
  | literal constant span =>
    dsimp only at h
    split at h
    · cases h
    · cases h
      rfl

variable {read : Operand → Except Diagnostic Variable}

theorem BuildsBound.writtenOr (hread : ∀ {o v}, read o = .ok v → v.position.isSome = true)
    {limit : Int} {operand? : Option Operand} {v : Variable}
    (h : BuildsBound read limit operand? v) : v.WrittenOr limit := by
  cases h with
  | given h => exact .inl (hread h)
  | absent => exact .inr rfl

/-- The gadget of a predicate is anchored in the text. -/
theorem Builds.anchored (hread : ∀ {o v}, read o = .ok v → v.position.isSome = true)
    {p : Predicate} {g : Gadget} (h : Builds read p g) : g.Anchored := by
  cases h with
  | equality hl hr => exact ⟨.inl (hread hl), .inl (hread hr)⟩
  | bounds hv hlo hhi => exact ⟨.inl (hread hv), hlo.writtenOr hread, hhi.writtenOr hread⟩
  | inequality hl hr =>
    exact List.forall_mem_cons.2 ⟨hread hl, List.forall_mem_singleton.2 (hread hr)⟩
  | mimcHash hp hi =>
    exact List.forall_mem_cons.2 ⟨hread hp, List.forall_mem_singleton.2 (hread hi)⟩
  | membership hm hs =>
    refine List.forall_mem_cons.2 ⟨hread hm, fun v hv => ?_⟩
    obtain ⟨o, -, ho⟩ := exists_of_forall₂ hs.flip hv
    exact hread ho
  | @merkleTree root tree span w t hr ht =>
    refine List.forall_mem_cons.2 ⟨hread hr, fun v hv => ?_⟩
    have hleaves : tree.root.leaves.map read = t.leaves.map .ok := by
      rw [← Tree.leaves_map, ht, Tree.leaves_map]
    obtain ⟨o, -, ho⟩ := List.mem_map.1 (hleaves ▸ List.mem_map_of_mem hv)
    exact hread ho

theorem anchored_of_resolve (hreg : scope.registry = .standard) {statement : Statement}
    {r : Resolved} (h : scope.resolve statement = .ok r) : ∀ g ∈ r.gadgets, g.Anchored := by
  obtain ⟨subjects, -, hgadgets⟩ := builds_of_resolve hreg h
  intro g hg
  obtain ⟨p, -, hbuilds, -⟩ := exists_of_forall₂ hgadgets.flip hg
  exact hbuilds.anchored isSome_position_of_operand

end Scope

/-! ## Rules -/

theorem Implication.Draws.anchored {matched : List Gadget} {g : Gadget} (h : Draws matched g)
    (hm : ∀ m ∈ matched, m.Anchored) : g.Anchored := by
  cases h with
  | @carry e b _ _ hperm h =>
    obtain ⟨s, w, hjoins, -, -, rfl⟩ := Equality.carry?_eq_some h
    have he := hm (.equality e) (hperm.symm.subset (by simp))
    have hb := hm (.bounds b) (hperm.symm.subset (by simp))
    exact ⟨hjoins.writtenOr he, hb.2⟩
  | @chain a b _ _ hperm h =>
    obtain ⟨s, t, x, y, hx, hy, -, -, rfl⟩ := Equality.chain?_eq_some h
    have ha := hm (.equality a) (hperm.symm.subset (by simp))
    have hb := hm (.equality b) (hperm.symm.subset (by simp))
    exact ⟨hx.writtenOr ha, hy.writtenOr hb⟩

/-- A range that ends in the upper limit starts below it, unless it is a point. -/
theorem Bounds.min_ne_greatest {b : Bounds} (hb : b.Valid) (hpoint : b.point? = none) {n : Int}
    (hn : b.min.integer? = some n) : n ≠ greatest := by
  obtain ⟨lo, hi, hlo, hhi, -, hle, hgreatest⟩ := hb.range
  rw [hn] at hlo
  cases hlo
  rintro rfl
  have heq : hi = greatest := by omega
  subst heq
  simp [point?, range?, hn, hhi] at hpoint

/-- Substitutions keep gadgets anchored as long as points go first. -/
theorem Substitution.Makes.anchored {matched new : List Gadget} (h : Makes matched new)
    (hm : ∀ m ∈ matched, m.Anchored) (hvalid : ∀ b, .bounds b ∈ matched → b.Valid)
    (hpoint : (∃ b, matched = [.bounds b]) ∨ ∀ b, .bounds b ∈ matched → b.point? = none) :
    ∀ g ∈ new, g.Anchored := by
  cases h with
  | point h =>
    obtain ⟨n, -, -, rfl⟩ := Bounds.point?_eq_some h
    have hb := hm _ (List.mem_singleton_self _)
    exact List.forall_mem_singleton.2 ⟨hb.1, hb.2.1⟩
  | @touch a b _ _ hperm h =>
    have ha : .bounds a ∈ matched := hperm.symm.subset (by simp)
    have hb : .bounds b ∈ matched := hperm.symm.subset (by simp)
    have hpoints : ∀ b, .bounds b ∈ matched → b.point? = none := by
      refine hpoint.resolve_left ?_
      rintro ⟨b', rfl⟩
      simpa using hperm.length_eq
    obtain ⟨aMin, aMax, bMin, bMax, hmeet, ⟨hends, rfl⟩ | ⟨hends, rfl⟩⟩ := Bounds.touch?_eq_some h
    · refine List.forall_mem_singleton.2 ⟨(hm _ ha).1, .inl ?_⟩
      exact (hm _ ha).2.2.integer?_eq hmeet.aMax
        (hends ▸ Bounds.min_ne_greatest (hvalid b hb) (hpoints b hb) hmeet.bMin)
    · refine List.forall_mem_singleton.2 ⟨(hm _ ha).1, .inl ?_⟩
      exact (hm _ hb).2.2.integer?_eq hmeet.bMax
        (hends ▸ Bounds.min_ne_greatest (hvalid a ha) (hpoints a ha) hmeet.aMin)
  | @intersect a b _ _ hperm h =>
    have ha := hm (.bounds a) (hperm.symm.subset (by simp))
    have hb := hm (.bounds b) (hperm.symm.subset (by simp))
    obtain ⟨aMin, aMax, bMin, bMax, -, -, -, rfl⟩ := Bounds.intersect?_eq_some h
    refine List.forall_mem_singleton.2 ⟨ha.1, ?_, ?_⟩
    · dsimp only
      split_ifs
      · exact ha.2.1
      · exact hb.2.1
    · dsimp only
      split_ifs
      · exact ha.2.2
      · exact hb.2.2
  | tautology h =>
    obtain ⟨-, rfl⟩ := Equality.trivial?_eq_some h
    exact List.forall_mem_nil _
  | distinct h =>
    obtain ⟨-, rfl⟩ := Inequality.trivial?_eq_some h
    exact List.forall_mem_nil _
  | @single m _ h =>
    obtain ⟨e, hset, rfl⟩ := Membership.single?_eq_some h
    have hmem := hm (.membership m) (List.mem_singleton_self _)
    refine List.forall_mem_singleton.2 ⟨.inl (hmem _ (by simp [Gadget.vars])), .inl (hmem _ ?_)⟩
    simp [Gadget.vars, hset]

/-- **Points are substituted before anything else.** -/
theorem RuleSet.substitution?_standard {l new others : List Gadget}
    (h : RuleSet.standard.substitution? l = some (new, others)) :
    ∃ matched, Substitution.Makes matched new ∧ l.Perm (matched ++ others) ∧
      ((∃ b, matched = [.bounds b]) ∨ ∀ b, .bounds b ∈ l → b.point? = none) := by
  cases hpoint : Substitution.pointRange.pattern.extract? l with
  | some found =>
    have hfound : Substitution.pointRange.pattern.extract? l = some (new, others) := by
      rw [hpoint]
      simpa [substitution?, standard, Substitution.all, hpoint] using h
    obtain ⟨matched, hsaid, hperm⟩ := Pattern.extract?_eq_some hfound
    obtain ⟨g, b, rfl, hb, -⟩ := Pattern.says_one hsaid
    refine ⟨[g], Substitution.makes_of_says hsaid, hperm, .inl ⟨b, ?_⟩⟩
    rw [Gadget.bounds?_eq_some_iff.1 hb]
  | none =>
    obtain ⟨matched, hmakes, hperm⟩ := substitution?_eq_some h
    refine ⟨matched, hmakes, hperm, .inr fun b hb => ?_⟩
    refine Option.eq_none_iff_forall_ne_some.2 fun new' hnew => ?_
    exact Pattern.extract?_eq_none_iff.1 hpoint [.bounds b] new' (List.singleton_sublist.2 hb)
      (Pattern.says_one_of rfl hnew)

/-! ## Runs -/

namespace OptimizerState

variable {s t : OptimizerState}

/-- All gadgets at hand meet their contracts and are anchored. -/
structure Anchored (s : OptimizerState) : Prop where
  check : ∀ g ∈ s.current, g.check = .ok ()
  anchored : ∀ g ∈ s.current, g.Anchored

theorem Anchored.bounds (h : s.Anchored) {b : Bounds} (hb : .bounds b ∈ s.current) : b.Valid :=
  Bounds.check_eq_ok_iff.1 (h.check _ hb)

theorem Anchored.grown (h : s.Anchored) {rules : RuleSet} : (s.grown rules).Anchored := by
  refine ⟨KeptByRules.check.grown h.check, fun g hg => ?_⟩
  rcases GadgetSet.mem_addAll hg with hg | hg
  · exact h.anchored g hg
  · obtain ⟨matched, hdraws, hsub⟩ := mem_fresh hg
    exact hdraws.anchored fun m hm => h.anchored m (hsub hm)

theorem Anchored.substitute? (h : s.Anchored) (ht : s.substitute? .standard = some t) :
    t.Anchored := by
  refine ⟨KeptByRules.check.substitute? ht h.check, ?_⟩
  obtain ⟨⟨new, others⟩, hsub, rfl⟩ := Option.map_eq_some_iff.1 ht
  obtain ⟨matched, hmakes, hperm, hpoint⟩ := RuleSet.substitution?_standard hsub
  have hmem : ∀ m ∈ matched, m ∈ s.current := fun m hm =>
    hperm.symm.subset (List.mem_append_left _ hm)
  intro g hg
  rcases GadgetSet.mem_addAll hg with hg | hg
  · exact h.anchored g (hperm.symm.subset (List.mem_append_right _ hg))
  · refine hmakes.anchored (fun m hm => h.anchored m (hmem m hm))
      (fun b hb => h.bounds (hmem _ hb)) ?_ g hg
    exact hpoint.imp_right fun hnone b hb => hnone b (hmem _ hb)

/-- **The gadgets of a run stay anchored.** -/
theorem Reaches.anchored (h : Reaches .standard s t) (hs : s.Anchored) : t.Anchored :=
  h.keeps (fun _ hs => hs.grown) (fun _ _ hs ht => hs.substitute? ht) hs

end OptimizerState

/-! ## Contradictions -/

namespace Diagnostic

variable {d : Diagnostic} {v w : Variable}

theorem isSome_position?_withVariable {message : String}
    (h : v.position.isSome = true ∨ d.position?.isSome = true) :
    (d.withVariable v message).position?.isSome = true := by
  simp only [position?, withVariable, List.findSome?_append, Option.isSome_or, Bool.or_eq_true]
  refine h.symm.imp_right fun hv => ?_
  simpa using hv

/-- One place is enough. -/
theorem isSome_position?_withVariables {message message' : String}
    (h : v.position.isSome = true ∨ w.position.isSome = true) :
    ((d.withVariable v message).withVariable w message').position?.isSome = true :=
  isSome_position?_withVariable
    (h.symm.imp_right fun hv => isSome_position?_withVariable (.inl hv))

end Diagnostic

/-- Ranges within the limits are apart at an end that is written somewhere. -/
theorem Bounds.isSome_position?_of_disjoint? {a b : Bounds} {error : Diagnostic}
    (ha : (Gadget.bounds a).Anchored) (hb : (Gadget.bounds b).Anchored) (hva : a.Valid)
    (hvb : b.Valid) (h : a.disjoint? b = some error) : error.position?.isSome = true := by
  unfold disjoint? at h
  split_ifs at h
  split at h
  case h_1 aMin aMax bMin bMax hra hrb =>
    obtain ⟨haMin, haMax⟩ := range?_eq_some_iff.1 hra
    obtain ⟨hbMin, hbMax⟩ := range?_eq_some_iff.1 hrb
    obtain ⟨lo, hi, hlo, hhi, hleast, -⟩ := hva.range
    obtain ⟨lo', hi', hlo', hhi', hleast', -⟩ := hvb.range
    rw [haMin] at hlo
    rw [hbMin] at hlo'
    cases hlo
    cases hlo'
    have hale := hva.le haMin haMax
    have hble := hvb.le hbMin hbMax
    split_ifs at h with hlt hlt'
    · cases h
      have hne : bMin ≠ least := by omega
      exact Diagnostic.isSome_position?_withVariables (.inr (hb.2.1.integer?_eq hbMin hne))
    · cases h
      have hne : aMin ≠ least := by omega
      exact Diagnostic.isSome_position?_withVariables (.inr (ha.2.1.integer?_eq haMin hne))
  case h_2 => cases h

/-- Two constants that are written nowhere are the same. -/
theorem Equality.isSome_position?_of_unequal? {e : Equality} {error : Diagnostic}
    (he : (Gadget.equality e).Anchored) (h : e.unequal? = some error) :
    error.position?.isSome = true := by
  unfold unequal? at h
  split_ifs at h with hdistinct
  cases h
  refine Diagnostic.isSome_position?_withVariables ?_
  rcases he.1 with hl | hl
  · exact .inl hl
  rcases he.2 with hr | hr
  · exact .inr hr
  · simp [distinctKnown, hl, hr] at hdistinct

/-- **A contradiction points somewhere.** -/
theorem Contradiction.Finds.isSome_position? {matched : List Gadget} {error : Diagnostic}
    (h : Finds matched error) (hm : ∀ m ∈ matched, m.Anchored)
    (hvalid : ∀ b, .bounds b ∈ matched → b.Valid) : error.position?.isSome = true := by
  cases h with
  | @empty b _ h =>
    rw [(hvalid b (List.mem_singleton_self _)).empty?_eq_none] at h
    cases h
  | @disjoint a b _ _ hperm h =>
    have ha : .bounds a ∈ matched := hperm.symm.subset (by simp)
    have hb : .bounds b ∈ matched := hperm.symm.subset (by simp)
    exact Bounds.isSome_position?_of_disjoint? (hm _ ha) (hm _ hb) (hvalid a ha) (hvalid b hb) h
  | unequal h => exact Equality.isSome_position?_of_unequal? (hm _ (List.mem_singleton_self _)) h
  | @reflexive i _ h =>
    unfold Inequality.reflexive? at h
    split_ifs at h
    cases h
    have hi := hm (.inequality i) (List.mem_singleton_self _)
    exact Diagnostic.isSome_position?_withVariables (.inl (hi _ (by simp [Gadget.vars])))
  | @denied e i _ _ hperm h =>
    unfold Equality.denied? at h
    split_ifs at h
    cases h
    have hi := hm (.inequality i) (hperm.symm.subset (by simp))
    exact Diagnostic.isSome_position?_withVariables (.inr (hi _ (by simp [Gadget.vars])))
  | @excluded m _ h =>
    unfold Membership.excluded? at h
    split_ifs at h
    cases h
    have hmem := hm (.membership m) (List.mem_singleton_self _)
    exact Diagnostic.isSome_position?_withVariable (.inl (hmem _ (by simp [Gadget.vars])))
  | @ambiguous a b _ _ hperm h =>
    unfold MimcHash.ambiguous? at h
    split_ifs at h
    cases h
    have ha := hm (.mimcHash a) (hperm.symm.subset (by simp))
    exact Diagnostic.isSome_position?_withVariables (.inl (ha _ (by simp [Gadget.vars])))

/-! ## Statements -/

namespace Scope

variable {scope : Scope} {e : Diagnostic}

theorem anchored_of_resolveWithRules {statement : Statement} {r : Resolved}
    (hreg : scope.registry = .standard) (hparent : scope.parent = none)
    (h : scope.resolveWithRules statement = .ok r) : (OptimizerState.initial r.gadgets).Anchored := by
  refine ⟨KeptByRules.initial (check_of_resolveWithRules hreg hparent h),
    KeptByRules.initial fun g hg => ?_⟩
  obtain ⟨part, -, source, resolved, hresolved, hg⟩ := (parts_of_resolveWithRules hparent h).2 g hg
  exact anchored_of_resolve ((registry_part ..).trans hreg) hresolved g hg

/-- A statement that is not resolved with its rules fails at a place or by the compiler's fault. -/
theorem isSome_position?_of_resolveWithRules {statement : Statement}
    (hreg : scope.registry = .standard) (h : scope.resolveWithRules statement = .error e)
    (hkind : e.isInternal = false) : e.position?.isSome = true := by
  rcases resolveWithRules_eq_error h with h | ⟨main, -, entry, -, hruleOf⟩
  · exact isSome_position?_of_resolve hreg h
  rcases ruleOf_eq_error hruleOf with ⟨⟨message, rfl⟩, -⟩ | ⟨source, rule, h⟩
  · cases hkind
  · have hnested : (scope.nested source entry.2.name).registry = .standard := hreg
    exact isSome_position?_of_resolve hnested h

end Scope

/-- **What is wrong with a statement is wrong somewhere.** Whatever the data and the cap, an error
that is not the compiler's fault points into a source. -/
theorem Request.isSome_position?_of_compile {context : DataContext} {source cap : Nat}
    {statement : Statement} {e : Diagnostic}
    (h : (scope context source).compile .standard cap statement = .error e)
    (hkind : e.kind ≠ .internal) : e.position?.isSome = true := by
  have hinternal : e.isInternal = false := decide_eq_false hkind
  rcases Scope.compile_eq_error h with h | ⟨resolved, hresolved, h⟩
  · exact Scope.isSome_position?_of_resolveWithRules rfl h hinternal
  rcases Optimizer.optimize_eq_error h with rfl | ⟨t, hreach, hstep⟩
  · cases hinternal
  have ht := hreach.anchored (Scope.anchored_of_resolveWithRules rfl rfl hresolved)
  obtain ⟨matched, hfinds, hsub⟩ :=
    RuleSet.contradiction?_eq_some (OptimizerState.step_eq_contradiction hstep)
  exact hfinds.isSome_position? (fun m hm => ht.anchored m (hsub hm)) fun b hb => ht.bounds (hsub hb)

/-- A date that is at most 0, and 5. The range is a point, and the equality it becomes is with the
limit that was not written. -/
def datedTwice : Statement :=
  statementAbout "alice" "passport_ch"
    [.bounds (fieldOf "alice" "dateOfBirth") none (some (number 0)) noSpan,
      .equality (fieldOf "alice" "dateOfBirth") (number 5) noSpan]

theorem Request.isSome_position?_of_compile_datedTwice :
    ∃ e, (scope ⟨[], [], [], []⟩ 3).compile .standard 10 datedTwice = .error e ∧
      (e.kind = .contradiction ∧ e.labels.any (·.position.isNone) = true) ∧
      e.position?.isSome = true := by
  have herror : ∃ e ∈ Attestation.failure?
      ((scope ⟨[], [], [], []⟩ 3).compile .standard 10 datedTwice),
      e.kind = .contradiction ∧ e.labels.any (·.position.isNone) = true := by decide +kernel
  obtain ⟨e, he, hlabels⟩ := herror
  rw [Option.mem_def, Attestation.failure?_eq_some_iff] at he
  exact ⟨e, he, hlabels, isSome_position?_of_compile he (by simp [hlabels.1])⟩

end Attestation
