import Attestation.Proofs.OptimizerRun
import Attestation.Proofs.Renaming

/-!
# The optimizer on renamed gadgets

The optimizer takes the same steps whatever the witness values and the numbers of sources are: it
finds the same contradictions (`RuleSet.contradiction?_rename`), implies and substitutes the same up
to the renaming, and so comes to the renamed result or to the renamed error
(`Optimizer.optimize_rename`). A property that rules keep has to ensure that the renaming is steady
for the gadgets in the run; one that seals and unseals nothing always is.
-/

namespace Attestation

variable {α β γ δ : Type}

/-! ## Looking through lists -/

theorem pairs_map (φ : α → β) (l : List α) :
    pairs (l.map φ) = (pairs l).map fun (a, b) => (φ a, φ b) := by
  induction l with
  | nil => rfl
  | cons a rest ih => simp [pairs, ih, Function.comp_def]

theorem findSome?_map_congr {φ : α → β} {f : β → Option δ} {g : α → Option γ} {ψ : γ → δ}
    {l : List α} (h : ∀ a ∈ l, f (φ a) = (g a).map ψ) :
    (l.map φ).findSome? f = (l.findSome? g).map ψ := by
  induction l with
  | nil => rfl
  | cons a rest ih =>
    have hrest := ih fun b hb => h b (List.mem_cons_of_mem _ hb)
    rw [List.map_cons, List.findSome?_cons, List.findSome?_cons, h a List.mem_cons_self, hrest]
    cases g a <;> rfl

theorem extract?_map {φ : α → α} {f : α → Option γ} {ψ : γ → γ} {g : α → Option γ} {l : List α}
    (h : ∀ a ∈ l, f (φ a) = (g a).map ψ) :
    extract? f (l.map φ) = (extract? g l).map fun (c, others) => (ψ c, others.map φ) := by
  induction l with
  | nil => rfl
  | cons a rest ih =>
    have hrest := ih fun b hb => h b (List.mem_cons_of_mem _ hb)
    rw [List.map_cons, extract?, extract?, h a List.mem_cons_self]
    cases g a with
    | some c => rfl
    | none => simp [hrest, Option.map_map, Function.comp_def]

theorem extractPair?_map {φ : α → α} {f g : α → α → Option γ} {ψ : γ → γ} {l : List α}
    (h : ∀ a ∈ l, ∀ b ∈ l, f (φ a) (φ b) = (g a b).map ψ) :
    extractPair? f (l.map φ) = (extractPair? g l).map fun (c, others) => (ψ c, others.map φ) := by
  induction l with
  | nil => rfl
  | cons a rest ih =>
    have hrest := ih fun b hb c hc => h b (List.mem_cons_of_mem _ hb) c (List.mem_cons_of_mem _ hc)
    have hfirst : extract? (f (φ a)) (rest.map φ) =
        (extract? (g a) rest).map fun (c, others) => (ψ c, others.map φ) :=
      extract?_map fun b hb => h a List.mem_cons_self b (List.mem_cons_of_mem _ hb)
    rw [List.map_cons, extractPair?, extractPair?, hfirst]
    cases extract? (g a) rest with
    | some found => rfl
    | none => simp [hrest, Option.map_map, Function.comp_def]

/-! ## Patterns -/

variable (ρ : Renaming)

namespace Pattern

/-- The rule says the same about renamed gadgets of a list, up to `ψ`. -/
def Renames (ψ : α → α) (gadgets : List Gadget) : Pattern (Option α) → Prop
  | .unary apply => ∀ g ∈ gadgets, (apply (g.rename ρ)).join = (apply g).join.map ψ
  | .binary apply => ∀ g ∈ gadgets, ∀ h ∈ gadgets,
      (apply (g.rename ρ) (h.rename ρ)).join = (apply g h).join.map ψ

variable {ρ} {ψ : α → α} {gadgets : List Gadget} {pattern : Pattern (Option α)}

theorem Renames.first? (h : Renames ρ ψ gadgets pattern) :
    pattern.first? (gadgets.map (Gadget.rename ρ)) = (pattern.first? gadgets).map ψ := by
  cases pattern with
  | unary apply => exact findSome?_map_congr h
  | binary apply =>
    unfold Pattern.first?
    rw [pairs_map]
    refine findSome?_map_congr ?_
    rintro ⟨x, y⟩ hxy
    obtain ⟨hx, hy⟩ := mem_pairs_of_mem hxy
    exact h x hx y hy

theorem Renames.allPairs (h : Renames ρ ψ gadgets pattern) :
    pattern.allPairs (gadgets.map (Gadget.rename ρ)) = (pattern.allPairs gadgets).map ψ := by
  cases pattern with
  | unary apply => rfl
  | binary apply =>
    simp only [Pattern.allPairs, pairs_map, List.filterMap_map, List.map_filterMap]
    refine List.filterMap_congr ?_
    rintro ⟨x, y⟩ hxy
    obtain ⟨hx, hy⟩ := mem_pairs_of_mem hxy
    exact h x hx y hy

theorem Renames.extract? (h : Renames ρ ψ gadgets pattern) :
    pattern.extract? (gadgets.map (Gadget.rename ρ)) =
      (pattern.extract? gadgets).map fun (a, others) => (ψ a, others.map (Gadget.rename ρ)) := by
  cases pattern with
  | unary apply => exact extract?_map h
  | binary apply => exact extractPair?_map h

theorem renames_one {view? : Gadget → Option β} {φ : β → β} {rule : β → Option α}
    (hview : ∀ g, view? (g.rename ρ) = (view? g).map φ)
    (hrule : ∀ g ∈ gadgets, ∀ b, view? g = some b → rule (φ b) = (rule b).map ψ) :
    Renames ρ ψ gadgets (one view? rule) := by
  intro g hg
  simp only [hview]
  cases hb : view? g with
  | none => rfl
  | some b => exact hrule g hg b hb

theorem renames_two {left? : Gadget → Option β} {right? : Gadget → Option γ} {φ : β → β}
    {χ : γ → γ} {rule : β → γ → Option α} (hleft : ∀ g, left? (g.rename ρ) = (left? g).map φ)
    (hright : ∀ g, right? (g.rename ρ) = (right? g).map χ)
    (hrule : ∀ b c, rule (φ b) (χ c) = (rule b c).map ψ) :
    Renames ρ ψ gadgets (two left? right? rule) := by
  intro x _ y _
  simp only [hleft, hright]
  cases left? x <;> cases right? y <;> cases left? y <;> cases right? x <;> simp [hrule]

end Pattern

/-! ## Rules -/

/-- The renaming is steady for the sides that the gadget compares. -/
def Gadget.Steady : Gadget → Prop
  | equality g => Attestation.Steady ρ g.left g.right
  | inequality g => Attestation.Steady ρ g.left g.right
  | _ => True

/-- A renaming that seals and unseals nothing is steady for all gadgets. -/
theorem Gadget.steady_of_isSealed {ρ : Renaming} (h : ∀ l, (ρ.literal l).isSealed = l.isSealed)
    (g : Gadget) : g.Steady ρ := by
  cases g with
  | equality g => exact Attestation.steady_of_isSealed ρ h
  | inequality g => exact Attestation.steady_of_isSealed ρ h
  | _ => trivial

section

variable (g : Gadget)

theorem Gadget.equality?_rename : (g.rename ρ).equality? = g.equality?.map (Equality.rename ρ) := by
  cases g <;> rfl

theorem Gadget.inequality?_rename :
    (g.rename ρ).inequality? = g.inequality?.map (Inequality.rename ρ) := by
  cases g <;> rfl

theorem Gadget.bounds?_rename : (g.rename ρ).bounds? = g.bounds?.map (Bounds.rename ρ) := by
  cases g <;> rfl

theorem Gadget.membership?_rename :
    (g.rename ρ).membership? = g.membership?.map (Membership.rename ρ) := by
  cases g <;> rfl

theorem Gadget.mimcHash?_rename : (g.rename ρ).mimcHash? = g.mimcHash?.map (MimcHash.rename ρ) := by
  cases g <;> rfl

end

variable {ρ} {gadgets : List Gadget}

theorem Contradiction.pattern_renames (h : ∀ g ∈ gadgets, g.Steady ρ) (rule : Contradiction) :
    Pattern.Renames ρ (Diagnostic.rename ρ) gadgets rule.pattern := by
  cases rule with
  | emptyRange =>
    exact Pattern.renames_one (Gadget.bounds?_rename ρ) fun _ _ b _ => b.empty?_rename ρ
  | disjointRanges =>
    exact Pattern.renames_two (Gadget.bounds?_rename ρ) (Gadget.bounds?_rename ρ)
      (Bounds.disjoint?_rename ρ)
  | unequalValues =>
    exact Pattern.renames_one (Gadget.equality?_rename ρ) fun _ _ e _ => e.unequal?_rename ρ
  | selfInequality =>
    refine Pattern.renames_one (Gadget.inequality?_rename ρ) fun g hg i hi => ?_
    rw [Gadget.inequality?_eq_some_iff] at hi
    subst hi
    have hsteady : Steady ρ i.left i.right := h _ hg
    exact Inequality.reflexive?_rename ρ hsteady
  | equalAndUnequal =>
    exact Pattern.renames_two (Gadget.equality?_rename ρ) (Gadget.inequality?_rename ρ)
      (Equality.denied?_rename ρ)
  | nonMember =>
    exact Pattern.renames_one (Gadget.membership?_rename ρ) fun _ _ m _ => m.excluded?_rename ρ
  | conflictingImages =>
    exact Pattern.renames_two (Gadget.mimcHash?_rename ρ) (Gadget.mimcHash?_rename ρ)
      (MimcHash.ambiguous?_rename ρ)

theorem Implication.pattern_renames (rule : Implication) :
    Pattern.Renames ρ (Gadget.rename ρ) gadgets rule.pattern := by
  cases rule with
  | boundsOverEquality =>
    exact Pattern.renames_two (Gadget.equality?_rename ρ) (Gadget.bounds?_rename ρ)
      (Equality.carry?_rename ρ)
  | transitivity =>
    exact Pattern.renames_two (Gadget.equality?_rename ρ) (Gadget.equality?_rename ρ)
      (Equality.chain?_rename ρ)

theorem Substitution.pattern_renames (h : ∀ g ∈ gadgets, g.Steady ρ) (rule : Substitution) :
    Pattern.Renames ρ (List.map (Gadget.rename ρ)) gadgets rule.pattern := by
  cases rule with
  | pointRange =>
    exact Pattern.renames_one (Gadget.bounds?_rename ρ) fun _ _ b _ => b.point?_rename ρ
  | sharedBoundary =>
    exact Pattern.renames_two (Gadget.bounds?_rename ρ) (Gadget.bounds?_rename ρ)
      (Bounds.touch?_rename ρ)
  | rangeIntersection =>
    exact Pattern.renames_two (Gadget.bounds?_rename ρ) (Gadget.bounds?_rename ρ)
      (Bounds.intersect?_rename ρ)
  | tautology =>
    refine Pattern.renames_one (Gadget.equality?_rename ρ) fun g hg e he => ?_
    rw [Gadget.equality?_eq_some_iff] at he
    subst he
    have hsteady : Steady ρ e.left e.right := h _ hg
    exact Equality.trivial?_rename ρ hsteady
  | distinctValues =>
    exact Pattern.renames_one (Gadget.inequality?_rename ρ) fun _ _ i _ => i.trivial?_rename ρ
  | singleElement =>
    exact Pattern.renames_one (Gadget.membership?_rename ρ) fun _ _ m _ => m.single?_rename ρ

namespace RuleSet

variable (rules : RuleSet)

theorem contradiction?_rename (h : ∀ g ∈ gadgets, g.Steady ρ) :
    rules.contradiction? (gadgets.map (Gadget.rename ρ)) =
      (rules.contradiction? gadgets).map (Diagnostic.rename ρ) := by
  simp only [contradiction?, (Contradiction.pattern_renames h _).first?]
  exact (List.map_findSome? ..).symm

theorem implied_rename :
    rules.implied (gadgets.map (Gadget.rename ρ)) =
      (rules.implied gadgets).map (Gadget.rename ρ) := by
  simp only [implied, rules.implications.map_flatMap, (Implication.pattern_renames _).allPairs]

theorem substitution?_rename (h : ∀ g ∈ gadgets, g.Steady ρ) :
    rules.substitution? (gadgets.map (Gadget.rename ρ)) =
      (rules.substitution? gadgets).map fun (new, others) =>
        (new.map (Gadget.rename ρ), others.map (Gadget.rename ρ)) := by
  simp only [substitution?, (Substitution.pattern_renames h _).extract?]
  exact (List.map_findSome? ..).symm

end RuleSet

/-! ## Sets of gadgets -/

namespace GadgetSet

theorem has_rename (set : List Gadget) (g : Gadget) :
    GadgetSet.has (set.map (Gadget.rename ρ)) (g.rename ρ) = GadgetSet.has set g := by
  simp [has, List.any_map, Function.comp_def]

theorem add_rename (set : List Gadget) (g : Gadget) :
    GadgetSet.add (set.map (Gadget.rename ρ)) (g.rename ρ) =
      (GadgetSet.add set g).map (Gadget.rename ρ) := by
  unfold add
  rw [has_rename]
  split_ifs <;> simp

theorem addAll_rename (set gs : List Gadget) :
    GadgetSet.addAll (set.map (Gadget.rename ρ)) (gs.map (Gadget.rename ρ)) =
      (GadgetSet.addAll set gs).map (Gadget.rename ρ) := by
  induction gs generalizing set with
  | nil => rfl
  | cons g gs ih =>
    have hrest := ih (GadgetSet.add set g)
    rw [← add_rename] at hrest
    exact hrest

theorem ofList_rename (gs : List Gadget) :
    GadgetSet.ofList (gs.map (Gadget.rename ρ)) = (GadgetSet.ofList gs).map (Gadget.rename ρ) :=
  addAll_rename [] gs

end GadgetSet

/-! ## Runs -/

variable (ρ)

def OptimizerState.rename (s : OptimizerState) : OptimizerState :=
  ⟨s.current.map (Gadget.rename ρ), s.seen.map (Gadget.rename ρ)⟩

/-- The outcome of a step on renamed gadgets. -/
def OptimizerStep.rename : OptimizerStep → OptimizerStep
  | contradiction error => contradiction (error.rename ρ)
  | stable gadgets => stable (gadgets.map (Gadget.rename ρ))
  | next s => next (s.rename ρ)

variable {ρ}

namespace OptimizerState

variable (rules : RuleSet) (s : OptimizerState)

theorem initial_rename (gs : List Gadget) :
    initial (gs.map (Gadget.rename ρ)) = (initial gs).rename ρ := by
  simp only [initial, GadgetSet.ofList_rename, rename]

theorem add_rename (gs : List Gadget) :
    (s.rename ρ).add (gs.map (Gadget.rename ρ)) = (s.add gs).rename ρ := by
  simp only [add, rename, GadgetSet.addAll_rename]

theorem fresh_rename : (s.rename ρ).fresh rules = (s.fresh rules).map (Gadget.rename ρ) := by
  have hnew : ((rules.implied s.current).map (Gadget.rename ρ)).filter
        (fun g => !GadgetSet.has (s.seen.map (Gadget.rename ρ)) g) =
      ((rules.implied s.current).filter fun g => !s.seen.has g).map (Gadget.rename ρ) := by
    rw [List.filter_map]
    simp only [Function.comp_def, GadgetSet.has_rename]
  simp only [fresh, rename, RuleSet.implied_rename, hnew, GadgetSet.ofList_rename]

theorem grown_rename : (s.rename ρ).grown rules = (s.grown rules).rename ρ := by
  rw [grown, fresh_rename, add_rename]
  rfl

theorem substitute?_rename (h : ∀ g ∈ s.current, g.Steady ρ) :
    (s.rename ρ).substitute? rules = (s.substitute? rules).map (rename ρ) := by
  have hsub : rules.substitution? (s.rename ρ).current =
      (rules.substitution? s.current).map fun (new, others) =>
        (new.map (Gadget.rename ρ), others.map (Gadget.rename ρ)) :=
    rules.substitution?_rename h
  unfold substitute?
  rw [hsub]
  cases rules.substitution? s.current with
  | none => rfl
  | some found => exact congrArg some (add_rename ⟨found.2, s.seen⟩ found.1)

/-- A step in terms of the state with all that is newly implied. -/
theorem step_eq : s.step rules =
    match rules.contradiction? s.current with
    | some error => .contradiction error
    | none =>
      match (s.grown rules).substitute? rules with
      | some s' => .next s'
      | none =>
        if s.current.length < (s.grown rules).current.length then .next (s.grown rules)
        else .stable (s.grown rules).current :=
  rfl

/-- **A step on renamed gadgets is the renamed step.** -/
theorem step_rename (h : ∀ g ∈ s.current, g.Steady ρ)
    (hgrown : ∀ g ∈ (s.grown rules).current, g.Steady ρ) :
    (s.rename ρ).step rules = (s.step rules).rename ρ := by
  have hcurrent : rules.contradiction? (s.rename ρ).current =
      (rules.contradiction? s.current).map (Diagnostic.rename ρ) :=
    rules.contradiction?_rename h
  have hlength : ∀ t : OptimizerState, (t.rename ρ).current.length = t.current.length :=
    fun t => List.length_map _
  rw [step_eq, step_eq, hcurrent, grown_rename, substitute?_rename rules _ hgrown, hlength, hlength]
  cases rules.contradiction? s.current with
  | some error => rfl
  | none =>
    cases (s.grown rules).substitute? rules with
    | some t => rfl
    | none =>
      dsimp only [Option.map_none]
      split_ifs <;> rfl

variable {P : Gadget → Prop}

/-- **A run on renamed gadgets is the renamed run**, if what rules keep ensures that the renaming is
steady. -/
theorem run?_rename (hP : KeptByRules P) (hsteady : ∀ g, P g → g.Steady ρ) {s : OptimizerState}
    (hs : ∀ g ∈ s.current, P g) (cap : Nat) :
    run? rules cap (s.rename ρ) =
      (run? rules cap s).map (mapBoth (.rename ρ) (List.map (.rename ρ))) := by
  induction cap generalizing s with
  | zero => rfl
  | succ cap ih =>
    have hstep : (s.rename ρ).step rules = (s.step rules).rename ρ :=
      step_rename rules s (fun g hg => hsteady g (hs g hg))
        fun g hg => hsteady g (hP.grown hs g hg)
    rw [run?, run?, hstep]
    cases hnext : s.step rules with
    | contradiction error => rfl
    | stable gadgets => rfl
    | next t => exact ih (hP.step hnext hs)

end OptimizerState

/-- **Optimizing renamed gadgets gives the renamed result or the renamed error.** -/
theorem Optimizer.optimize_rename {P : Gadget → Prop} (hP : KeptByRules P)
    (hsteady : ∀ g, P g → g.Steady ρ) (rules : RuleSet) (cap : Nat)
    (hg : ∀ g ∈ gadgets, P g) :
    optimize rules cap (gadgets.map (Gadget.rename ρ)) =
      mapBoth (.rename ρ) (List.map (.rename ρ)) (optimize rules cap gadgets) := by
  unfold optimize
  rw [OptimizerState.initial_rename,
    OptimizerState.run?_rename rules hP hsteady (KeptByRules.initial hg)]
  cases OptimizerState.run? rules cap (.initial gadgets) <;> rfl

end Attestation
