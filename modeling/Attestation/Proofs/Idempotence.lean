import Attestation.Proofs.NormalForm
import Mathlib.Data.Int.LeastGreatest

/-!
# Optimizing twice

What was ever at hand is not implied again. In a second run that is forgotten, and what the first
run took out may be implied once more. Under all rules this concerns ranges alone, and only those of
witnesses that are said to equal a disclosed quantity: `Optimizer.optimize_optimize_iff` says what
is missing from a result and that optimizing the result changes nothing exactly if nothing is
missing. `Optimizer.optimize_meetingRest_ne` is a case where something is.

Two invariants of runs carry this, both about quantities that are linked in the result
(`OptimizerState.LinksWithin`), since links are there for good.

* As long as no two ranges of a quantity meet in a number, none is forgotten but for one that says
  more (`OptimizerState.Tight`). Where the run ends, ranges are then carried along all links
  (`OptimizerState.Tight.carried`). Ranges that meet leave the quantity pinned to the number
  (`OptimizerState.Kept`), and ranges have no ends but those of the ranges a run starts with
  (`OptimizerState.AllRanges`).
* If ranges of linked quantities do meet, each quantity soon has both. Of those that end where they
  meet, take the range that goes down furthest: it is the first range of its quantity, so it is
  taken out with one that it meets, and no intersection brings it back (`OptimizerState.Meets`). A
  second run does not come back to where it started then.
-/

namespace Attestation

/-- Some gadget says that a quantity equals one that is disclosed. -/
def Pinned (gadgets : List Gadget) (v : Identity) : Prop :=
  ∃ p : Identity, p.visibility = .disclosed ∧ Links gadgets v p

/-- Some gadget says that a quantity is a given number. -/
def Fixes (gadgets : List Gadget) (v : Identity) (n : Int) : Prop :=
  Links gadgets v ⟨.disclosed, .integer n⟩

/-- Gadgets say of all witnesses that a quantity is linked to in what range they lie. -/
def Carried (gadgets : List Gadget) (u : Identity) : Prop :=
  ∀ v lo hi, Links gadgets u v → v.visibility = .witness → Ranges gadgets u lo hi →
    Ranges gadgets v lo hi

/-! ## What settled gadgets imply -/

namespace Settled

variable {out : List Gadget} {u v w : Identity} {lo hi : Int}

theorem witness_of_ranges (h : Settled out) (hr : Ranges out v lo hi) :
    v.visibility = .witness := by
  obtain ⟨b, hb, hspans⟩ := hr
  rw [← hspans.value]
  exact (h.valid_bounds hb).witness

/-- Settled gadgets imply nothing new but ranges that are not carried. -/
theorem has_or_carries (h : Settled out) {g : Gadget} (hg : g ∈ RuleSet.standard.implied out) :
    GadgetSet.has out g = true ∨
      ∃ e b, .equality e ∈ out ∧ .bounds b ∈ out ∧ e.carry? b = some g ∧
        ¬ Carried out b.value.identity := by
  obtain ⟨matched, hdraws, hsub⟩ := RuleSet.mem_implied hg
  cases hdraws with
  | @carry e b _ _ hperm hcarry =>
    have he : Gadget.equality e ∈ out := hsub (hperm.symm.subset (by simp))
    have hb : Gadget.bounds b ∈ out := hsub (hperm.symm.subset (by simp))
    by_cases hc : Carried out b.value.identity
    · left
      obtain ⟨s, w, hjoins, hs, hw, rfl⟩ := Equality.carry?_eq_some hcarry
      obtain ⟨lo, hi, hlo, hhi, -⟩ := (h.valid_bounds hb).range
      have hlinks : Links out b.value.identity w.identity := ⟨e, s, w, he, hjoins, hs, rfl⟩
      have hspans : Bounds.Spans ⟨w, b.min, b.max⟩ w.identity lo hi := ⟨rfl, hlo, hhi⟩
      exact (GadgetSet.has_bounds_iff hspans).2
        (hc _ lo hi hlinks hw ⟨b, hb, rfl, hlo, hhi⟩)
    · exact .inr ⟨e, b, he, hb, hcarry, hc⟩
  | @chain a b _ _ hperm hchain =>
    left
    have ha : Gadget.equality a ∈ out := hsub (hperm.symm.subset (by simp))
    have hb : Gadget.equality b ∈ out := hsub (hperm.symm.subset (by simp))
    obtain ⟨s, t, x, y, hax, hby, hst, hne, rfl⟩ := Equality.chain?_eq_some hchain
    have hxs : Links out x.identity s.identity := ⟨a, x, s, ha, hax.symm, rfl, rfl⟩
    have hsy : Links out s.identity y.identity := ⟨b, t, y, hb, hby, hst.symm, rfl⟩
    exact GadgetSet.has_equality_iff.2 (h.links_trans hxs hsy hne)

/-- Settled gadgets that imply nothing new are left as they are. -/
theorem optimize_eq (h : Settled out)
    (hhas : ∀ g ∈ RuleSet.standard.implied out, GadgetSet.has out g = true) {cap : Nat}
    (hcap : 0 < cap) : Optimizer.optimize .standard cap out = .ok out := by
  have hfresh : OptimizerState.fresh .standard ⟨out, out⟩ = [] := by
    have hnil : (RuleSet.standard.implied out).filter (fun g => !GadgetSet.has out g) = [] := by
      refine List.filter_eq_nil_iff.2 fun g hg => ?_
      simp [hhas g hg]
    simp [OptimizerState.fresh, hnil, GadgetSet.ofList, GadgetSet.addAll]
  have hstep : OptimizerState.step .standard ⟨out, out⟩ = .stable out := by
    simp [OptimizerState.step, h.contradiction, hfresh, OptimizerState.add, GadgetSet.addAll,
      OptimizerState.substitute?, h.substitution]
  obtain ⟨n, rfl⟩ : ∃ n, cap = n + 1 := ⟨cap - 1, by omega⟩
  refine Optimizer.optimize_eq_of_run? ?_
  rw [h.initial_eq, OptimizerState.run?, hstep]

end Settled

/-! ## Runs on the way to given links -/

namespace OptimizerState

variable {rules : RuleSet} {s t : OptimizerState} {out : List Gadget} {C : Identity → Prop}
  {v w : Identity} {lo hi : Int}

/-- The links of a state are among those of the gadgets that a run leads to. -/
def LinksWithin (out : List Gadget) (s : OptimizerState) : Prop :=
  ∀ v w, v ≠ w → Links s.current v w → Links out v w

theorem LinksWithin.of_grown (h : LinksWithin out (s.grown rules)) : LinksWithin out s :=
  fun v w hne hl => h v w hne (links_grown.2 (.inl hl))

theorem LinksWithin.of_substitute? (ht : s.substitute? rules = some t) (h : LinksWithin out t) :
    LinksWithin out s :=
  fun v w hne hl => h v w hne (links_substitute? ht hne hl)

theorem linksWithin_of_stable (h : s.step rules = .stable out) : LinksWithin out s := by
  rw [LinksWithin, current_of_step_stable h]
  exact fun v w _ hl => hl

/-- What growing and substituting keep as long as there are only the links of the result. -/
theorem Reaches.keeps_within {P : OptimizerState → Prop}
    (hgrown : ∀ s, LinksWithin out s → P s → P (s.grown rules))
    (hsubstitute : ∀ s t, LinksWithin out t → P s → s.substitute? rules = some t → P t)
    (h : Reaches rules s t) (ht : LinksWithin out t) (hs : P s) : P t := by
  have hkeeps : LinksWithin out t → P t := by
    refine h.keeps (P := fun s => LinksWithin out s → P s) (fun s hs hout => ?_)
      (fun s t hs hsub hout => ?_) fun _ => hs
    · exact hgrown s hout.of_grown (hs hout.of_grown)
    · exact hsubstitute s t hout (hs (hout.of_substitute? hsub)) hsub
  exact hkeeps ht

/-! ## Ranges that are not forgotten -/

/-- Of quantities of a kind no range is forgotten, but for one that says more. -/
def Tight (C : Identity → Prop) (s : OptimizerState) : Prop :=
  ∀ v lo hi, C v → Ranges s.seen v lo hi → Covers s.current v lo hi

theorem Tight.grown (h : Tight C s) : Tight C (s.grown rules) := by
  intro v lo hi hv hr
  rcases GadgetSet.ranges_addAll.1 hr with hr | hr
  · exact (h v lo hi hv hr).mono fun g hg => GadgetSet.subset_addAll hg
  · exact Ranges.covers (ranges_grown.2 (.inr hr))

theorem Tight.substitute? (h : Tight C s) (ht : s.substitute? rules = some t)
    (hmeet : ∀ v x p y, C v → Ranges s.current v x p → Ranges s.current v p y →
      ¬ Links t.current v ⟨.disclosed, .integer p⟩) : Tight C t := by
  intro v lo hi hv hr
  rcases ranges_seen_of_substitute? ht hr with hr | hr
  · obtain ⟨lo', hi', hlo, hhi, hr'⟩ := h v lo hi hv hr
    rcases covers_or_meets_of_substitute? ht hr' with ⟨lo'', hi'', hlo', hhi', hr''⟩ | hmeets
    · exact ⟨lo'', hi'', by omega, by omega, hr''⟩
    · obtain ⟨x, p, y, hx, hy, -, hl⟩ := hmeets
      exact absurd hl (hmeet v x p y hv hx hy)
  · exact hr.covers

/-- Every range that was ever at hand is, or one that says more, unless it holds a number that the
quantity is said to be in the end. -/
structure Kept (out : List Gadget) (s : OptimizerState) : Prop where
  check : ∀ g ∈ s.current, g.check = .ok ()
  ranges : ∀ v lo hi, Ranges s.seen v lo hi →
    Covers s.current v lo hi ∨ ∃ n, Fixes out v n ∧ lo ≤ n ∧ n ≤ hi

theorem Kept.grown (h : Kept out s) : Kept out (s.grown rules) where
  check := KeptByRules.check.grown h.check
  ranges v lo hi hr := by
    rcases GadgetSet.ranges_addAll.1 hr with hr | hr
    · exact (h.ranges v lo hi hr).imp_left fun hc => hc.mono fun g hg => GadgetSet.subset_addAll hg
    · exact .inl (Ranges.covers (ranges_grown.2 (.inr hr)))

theorem Kept.substitute? (h : Kept out s) (hout : LinksWithin out t)
    (ht : s.substitute? rules = some t) : Kept out t where
  check := KeptByRules.check.substitute? ht h.check
  ranges v lo hi hr := by
    rcases ranges_seen_of_substitute? ht hr with hr | hr
    · rcases h.ranges v lo hi hr with ⟨lo', hi', hlo, hhi, hr'⟩ | hfixed
      · rcases covers_or_meets_of_substitute? ht hr' with ⟨lo'', hi'', hlo', hhi', hr''⟩ | hmeets
        · exact .inl ⟨lo'', hi'', by omega, by omega, hr''⟩
        · -- the number in which ranges meet is an end of each
          obtain ⟨x, p, y, -, -, hp, hl⟩ := hmeets
          obtain ⟨b, hb, hspans⟩ := hr'
          have hvalid := Bounds.check_eq_ok_iff.1 (h.check _ hb)
          have hle := hvalid.le hspans.min hspans.max
          have hwit : v.visibility = .witness := hspans.value ▸ hvalid.witness
          have hne : v ≠ ⟨.disclosed, .integer p⟩ := by
            rintro rfl
            cases hwit
          exact .inr ⟨p, hout _ _ hne hl, by omega, by omega⟩
      · exact .inr hfixed
    · exact .inl hr.covers

/-- Where no range is forgotten, ranges are carried: a range and what it was carried to say as much
as each other. -/
theorem Tight.carried (h : Tight C s) (hout : Settled out)
    (hstable : s.step .standard = .stable out)
    (hC : ∀ v w, C v → Links out v w → w.visibility = .witness → C w) {u : Identity} (hu : C u) :
    Carried out u := by
  have hcurrent := current_of_step_stable hstable
  have hgrown := step_eq_stable hstable
  have hcovers : ∀ {v w : Identity} {lo hi : Int}, C w → Links out v w → v ≠ w →
      w.visibility = .witness → Ranges out v lo hi → Covers out w lo hi := by
    intro v w lo hi hw hl hne hwit hr
    rw [← hcurrent] at hl hr
    have htight : Tight C (s.grown .standard) := h.grown
    rw [← hgrown]
    exact htight w lo hi hw (ranges_seen_of_links hl hr hne hwit)
  intro w lo hi hl hwit hr
  by_cases hne : u = w
  · exact hne ▸ hr
  have hw : C w := hC u w hu hl hwit
  obtain ⟨lo', hi', hlo, hhi, hr'⟩ := hcovers hw hl hne hwit hr
  obtain ⟨lo'', hi'', hlo', hhi', hr''⟩ :=
    hcovers hu hl.symm (Ne.symm hne) (hout.witness_of_ranges hr) hr'
  obtain ⟨rfl, rfl⟩ := hout.ranges_unique hr hr''
  have hlo_eq : lo = lo' := by omega
  have hhi_eq : hi = hi' := by omega
  rw [hlo_eq, hhi_eq]
  exact hr'

/-! ## The ends of ranges -/

/-- All ranges of quantities of a kind have a property. -/
def AllRanges (C : Identity → Prop) (Q : Int → Int → Prop) (s : OptimizerState) : Prop :=
  ∀ v lo hi, C v → Ranges s.current v lo hi → Q lo hi

variable {Q : Int → Int → Prop}

theorem AllRanges.grown (h : AllRanges C Q s) (hout : LinksWithin out s)
    (hC : ∀ v w, C v → Links out v w → C w) : AllRanges C Q (s.grown rules) := by
  intro v lo hi hv hr
  rcases ranges_grown.1 hr with hr | hr
  · exact h v lo hi hv hr
  · obtain ⟨u, hl, hr⟩ := exists_ranges_of_fresh hr
    by_cases hne : v = u
    · exact h u lo hi (hne ▸ hv) hr
    · exact h u lo hi (hC v u hv (hout v u hne hl.symm)) hr

theorem AllRanges.substitute? (h : AllRanges C Q s) (ht : s.substitute? rules = some t)
    (hQ : ∀ a b c d, Q a b → Q c d → Q (max a c) (min b d)) : AllRanges C Q t := by
  intro v lo hi hv hr
  obtain ⟨aMin, aMax, bMin, bMax, ha, hb, rfl, rfl⟩ := exists_ranges_of_substitute? ht hr
  exact hQ _ _ _ _ (h v _ _ hv ha) (h v _ _ hv hb)

end OptimizerState

/-! ## Ranges that meet -/

theorem sublist_of_sublist_append {α : Type} {l extra : List α} {a b : α}
    (h : [a, b].Sublist (l ++ extra)) (hb : b ∉ extra) : [a, b].Sublist l := by
  obtain ⟨l₁, l₂, heq, h₁, h₂⟩ := List.sublist_append_iff.1 h
  rcases l₁ with _ | ⟨c, _ | ⟨d, rest⟩⟩
  · obtain rfl : [a, b] = l₂ := heq
    exact absurd (h₂.subset (by simp)) hb
  · obtain ⟨rfl, rfl⟩ : a = c ∧ [b] = l₂ := by simpa using heq
    exact absurd (h₂.subset (by simp)) hb
  · obtain ⟨rfl, rfl, hrest⟩ : a = c ∧ b = d ∧ [] = rest ++ l₂ := by simpa using heq
    obtain ⟨rfl, -⟩ := List.append_eq_nil_iff.1 hrest.symm
    exact h₁

/-- Bounds `g` and `h` for a quantity stand in this order and meet in `p`, and no bounds for the
quantity stand before them. -/
structure Touching (l : List Gadget) (e : Identity) (x p y : Int) (g h : Bounds) : Prop where
  lower : g.Spans e x p
  upper : h.Spans e p y
  sublist : [Gadget.bounds g, .bounds h].Sublist l
  leads : ∀ b : Bounds, [Gadget.bounds b, .bounds g].Sublist l → b.value.identity ≠ e

namespace Touching

variable {l extra : List Gadget} {e : Identity} {x p y : Int} {g h : Bounds}

theorem append (ht : Touching l e x p y g h) (hl : (l ++ extra).Nodup) :
    Touching (l ++ extra) e x p y g h where
  lower := ht.lower
  upper := ht.upper
  sublist := ht.sublist.trans (List.sublist_append_left _ _)
  leads b hb := by
    have hg : Gadget.bounds g ∈ l := ht.sublist.subset (by simp)
    refine ht.leads b (sublist_of_sublist_append hb fun hextra => ?_)
    exact (List.nodup_append.1 hl).2.2 _ hg _ hextra rfl

theorem erase (ht : Touching l e x p y g h) {d : Gadget} (hg : d ≠ .bounds g) (hh : d ≠ .bounds h) :
    Touching (l.erase d) e x p y g h where
  lower := ht.lower
  upper := ht.upper
  sublist := by
    have hd : d ∉ [Gadget.bounds g, .bounds h] := by simp [hg, hh]
    have hsub := ht.sublist.erase d
    rwa [List.erase_of_not_mem hd] at hsub
  leads b hb := ht.leads b (hb.trans List.erase_sublist)

/-- Bounds for another quantity may be taken out. -/
theorem erase_of_value_ne (ht : Touching l e x p y g h) {b : Bounds} (hb : b.value.identity ≠ e) :
    Touching (l.erase (.bounds b)) e x p y g h := by
  refine ht.erase ?_ ?_
  · intro heq
    exact hb (Gadget.bounds.inj heq ▸ ht.lower.value)
  · intro heq
    exact hb (Gadget.bounds.inj heq ▸ ht.upper.value)

/-- The rule for ranges that meet applies to them. -/
theorem applies (ht : Touching l e x p y g h) :
    Substitution.sharedBoundary.pattern.Says [.bounds g, .bounds h]
      [.equality ⟨g.value, g.max⟩] := by
  have hvalue : g.value.same h.value = true :=
    (Variable.same_iff _ _).2 (ht.lower.value.trans ht.upper.value.symm)
  have hrg : g.range? = some (x, p) := Bounds.range?_eq_some_iff.2 ⟨ht.lower.min, ht.lower.max⟩
  have hrh : h.range? = some (p, y) := Bounds.range?_eq_some_iff.2 ⟨ht.upper.min, ht.upper.max⟩
  refine Pattern.says_two_of rfl rfl ?_
  simp [Bounds.touch?, hvalue, hrg, hrh]

end Touching

/-- The two ranges that a meeting is about are of one quantity, and an equality replaces them. -/
theorem Substitution.bounds_of_sharedBoundary {c d : Gadget} {new : List Gadget}
    (h : Substitution.sharedBoundary.pattern.Says [c, d] new) :
    ∃ a b : Bounds, c = .bounds a ∧ d = .bounds b ∧ a.value.identity = b.value.identity ∧
      ∃ e, new = [.equality e] := by
  obtain ⟨x, y, a, b, hperm, hx, hy, htouch⟩ := Pattern.says_two h
  obtain rfl := Gadget.bounds?_eq_some_iff.1 hx
  obtain rfl := Gadget.bounds?_eq_some_iff.1 hy
  obtain ⟨_, _, _, _, hmeet, hnew⟩ := Bounds.touch?_eq_some htouch
  have hequality : ∃ e, new = [.equality e] := by
    rcases hnew with ⟨-, rfl⟩ | ⟨-, rfl⟩
    · exact ⟨_, rfl⟩
    · exact ⟨_, rfl⟩
  have hboth : ∀ k ∈ [c, d], ∃ b' : Bounds, k = .bounds b' ∧
      b'.value.identity = a.value.identity := by
    intro k hk
    have hk' := hperm.subset hk
    simp only [List.mem_cons, List.not_mem_nil, or_false] at hk'
    rcases hk' with rfl | rfl
    · exact ⟨a, rfl, rfl⟩
    · exact ⟨b, rfl, hmeet.value.symm⟩
  obtain ⟨a', rfl, ha'⟩ := hboth c (by simp)
  obtain ⟨b', rfl, hb'⟩ := hboth d (by simp)
  exact ⟨a', b', rfl, rfl, ha'.trans hb'.symm, hequality⟩

/-- While ranges meet, only points and meeting ranges are substituted. -/
theorem RuleSet.substitution?_of_not_silent {l new others : List Gadget}
    (h : RuleSet.standard.substitution? l = some (new, others))
    (hmeets : ¬ Substitution.sharedBoundary.pattern.Silent l) :
    Substitution.pointRange.pattern.extract? l = some (new, others) ∨
      Substitution.sharedBoundary.pattern.extract? l = some (new, others) := by
  simp only [substitution?, standard, Substitution.all, List.findSome?_cons] at h
  cases hpoint : Substitution.pointRange.pattern.extract? l with
  | some found => exact .inl (by simpa [hpoint] using h)
  | none =>
    cases hshared : Substitution.sharedBoundary.pattern.extract? l with
    | some found => exact .inr (by simpa [hpoint, hshared] using h)
    | none => exact absurd (Pattern.extract?_eq_none_iff.1 hshared) hmeets

theorem GadgetSet.Distinct.bounds_unique {set : GadgetSet} (hset : set.Distinct) {a b : Bounds}
    {v : Identity} {lo hi : Int} (ha : .bounds a ∈ set) (hb : .bounds b ∈ set)
    (hspans : a.Spans v lo hi) (hspans' : b.Spans v lo hi) : a = b := by
  by_contra hne
  rcases sublist_pair_or ha hb (by simpa using hne) with hsub | hsub
  · have hsame := (Gadget.same_bounds_iff hspans').2 ⟨a, rfl, hspans⟩
    rw [List.pairwise_iff_forall_sublist.1 hset hsub] at hsame
    cases hsame
  · have hsame := (Gadget.same_bounds_iff hspans).2 ⟨b, rfl, hspans'⟩
    rw [List.pairwise_iff_forall_sublist.1 hset hsub] at hsame
    cases hsame

namespace Touching

variable {l new others : List Gadget} {e : Identity} {x p y : Int} {g h : Bounds}

/-- A point that is taken out is neither of the two ranges. -/
theorem of_pointRange (ht : Touching l e x p y g h) (hxp : x < p) (hpy : p < y)
    (hpoint : Substitution.pointRange.pattern.extract? l = some (new, others)) :
    Touching others e x p y g h := by
  obtain ⟨d, -, hd, rfl⟩ := extract?_eq_erase hpoint
  have hsaid : Substitution.pointRange.pattern.Says [d] new := hd
  obtain ⟨_, b, heq, hb, hb'⟩ := Pattern.says_one hsaid
  obtain ⟨n, hmin, hmax, -⟩ := Bounds.point?_eq_some hb'
  obtain rfl := Gadget.bounds?_eq_some_iff.1 (List.singleton_inj.1 heq ▸ hb)
  have hspans : b.Spans b.value.identity n n := ⟨rfl, hmin, hmax⟩
  refine ht.erase ?_ ?_
  · intro heq
    obtain rfl := Gadget.bounds.inj heq
    have hends := hspans.unique ht.lower
    omega
  · intro heq
    obtain rfl := Gadget.bounds.inj heq
    have hends := hspans.unique ht.upper
    omega

/-- Ranges that are taken out because they meet are of a quantity that comes before, or the first of
them is the first of the two ranges. -/
theorem of_sharedBoundary (ht : Touching l e x p y g h) (hl : GadgetSet.Distinct l)
    (hshared : Substitution.sharedBoundary.pattern.extract? l = some (new, others)) :
    Touching others e x p y g h ∨ ¬ Ranges (GadgetSet.addAll others new) e x p := by
  obtain ⟨c, d, hcd, hsaid, rfl, hfirst⟩ := extractPair?_eq_erase hl.nodup hshared
  obtain ⟨a, b, rfl, rfl, hvalue, e', rfl⟩ := Substitution.bounds_of_sharedBoundary hsaid
  rcases hfirst _ _ ht.sublist (by rw [ht.applies]; simp) with heq | hbefore
  · -- no other range has the ends of the one that is gone
    right
    obtain rfl := Gadget.bounds.inj heq
    intro hr
    rcases GadgetSet.ranges_addAll.1 hr with ⟨b', hb', hspans⟩ | ⟨b', hb', -⟩
    · have hmem := hl.nodup.mem_erase_iff.1 (List.mem_of_mem_erase hb')
      have hg : Gadget.bounds g ∈ l := ht.sublist.subset (by simp)
      exact hmem.1 (congrArg Gadget.bounds (hl.bounds_unique hmem.2 hg hspans ht.lower))
    · simp at hb'
  · left
    have ha : a.value.identity ≠ e := ht.leads a hbefore
    have hb : b.value.identity ≠ e := hvalue ▸ ha
    exact (ht.erase_of_value_ne ha).erase_of_value_ne hb

end Touching

namespace OptimizerState

variable {s t : OptimizerState} {e : Identity} {x p y : Int} {g h : Bounds}

/-- The first range of a quantity is there until it is substituted together with one that it
meets. -/
theorem touching_or_not_ranges_of_substitute? (hs : s.current.Distinct)
    (ht : s.substitute? .standard = some t) (htouch : Touching s.current e x p y g h)
    (hxp : x < p) (hpy : p < y) :
    Touching t.current e x p y g h ∨ ¬ Ranges t.current e x p := by
  have htdistinct := distinct_substitute? ht hs
  obtain ⟨⟨new, others⟩, hsub, rfl⟩ := Option.map_eq_some_iff.1 ht
  obtain ⟨extra, hextra⟩ := @GadgetSet.exists_addAll_eq_append others new
  have hnodup : (others ++ extra).Nodup := hextra ▸ htdistinct.nodup
  -- it is enough that the two ranges stay, since new gadgets come last
  suffices hothers : Touching others e x p y g h ∨
      ¬ Ranges (GadgetSet.addAll others new) e x p by
    refine hothers.imp_left fun hothers => ?_
    change Touching (GadgetSet.addAll others new) e x p y g h
    rw [hextra]
    exact hothers.append hnodup
  have hmeets : ¬ Substitution.sharedBoundary.pattern.Silent s.current :=
    fun hsilent => hsilent _ _ htouch.sublist htouch.applies
  rcases RuleSet.substitution?_of_not_silent hsub hmeets with hpoint | hshared
  · exact .inl (htouch.of_pointRange hxp hpy hpoint)
  · exact htouch.of_sharedBoundary hs hshared

/-- Of all ranges of a class that end in `p`, that of `e` goes down furthest. It still stands before
a range that it meets in `p`, or it is gone. -/
structure Meets (C : Identity → Prop) (e : Identity) (x p y : Int) (s : OptimizerState) :
    Prop where
  distinct : s.current.Distinct
  least : AllRanges C (fun lo hi => hi = p → x ≤ lo) s
  seen : Ranges s.seen e x p
  touching : (∃ g h, Touching s.current e x p y g h) ∨ ¬ Ranges s.current e x p

variable {C : Identity → Prop} {out : List Gadget} {rules : RuleSet}

theorem Meets.grown (hm : Meets C e x p y s) (hout : LinksWithin out s)
    (hC : ∀ v w, C v → Links out v w → C w) : Meets C e x p y (s.grown rules) where
  distinct := hm.distinct.addAll
  least := hm.least.grown hout hC
  seen := hm.seen.mono fun g hg => GadgetSet.subset_addAll hg
  touching := by
    rcases hm.touching with ⟨g, h, htouch⟩ | hgone
    · obtain ⟨extra, hextra⟩ := @GadgetSet.exists_addAll_eq_append s.current (s.fresh rules)
      have hgrown : (s.grown rules).current = s.current ++ extra := hextra
      have hdistinct : (s.grown rules).current.Distinct := hm.distinct.addAll
      refine .inl ⟨g, h, ?_⟩
      rw [hgrown] at hdistinct ⊢
      exact htouch.append hdistinct.nodup
    · -- what was seen is not implied again
      refine .inr fun hr => ?_
      rcases ranges_grown.1 hr with hr | hr
      · exact hgone hr
      · exact not_ranges_seen_of_fresh hr hm.seen

theorem Meets.substitute? (hm : Meets C e x p y s) (ht : s.substitute? .standard = some t)
    (he : C e) (hxp : x < p) (hpy : p < y) : Meets C e x p y t where
  distinct := distinct_substitute? ht hm.distinct
  least := hm.least.substitute? ht fun a b c d hab hcd hp => by omega
  seen := hm.seen.mono (seen_subset_of_substitute? ht)
  touching := by
    rcases hm.touching with ⟨g, h, htouch⟩ | hgone
    · rcases touching_or_not_ranges_of_substitute? hm.distinct ht htouch hxp hpy with ht | ht
      · exact .inl ⟨g, h, ht⟩
      · exact .inr ht
    · -- an intersection with these ends would be that of the range with another
      refine .inr fun hr => hgone ?_
      obtain ⟨aMin, aMax, bMin, bMax, ha, hb, hlo, hhi⟩ := exists_ranges_of_substitute? ht hr
      have hleastA := hm.least e aMin aMax he ha
      have hleastB := hm.least e bMin bMax he hb
      by_cases hp : aMax = p
      · have hx : aMin = x := by have := hleastA hp; omega
        rwa [hx, hp] at ha
      · have hp' : bMax = p := by omega
        have hx : bMin = x := by have := hleastB hp'; omega
        rwa [hx, hp'] at hb

/-- No run ends while ranges meet. -/
theorem Meets.not_ranges_of_substitute?_eq_none (hm : Meets C e x p y s)
    (hs : s.substitute? .standard = none) : ¬ Ranges s.current e x p := by
  rcases hm.touching with ⟨g, h, htouch⟩ | hgone
  · have hnone := Option.map_eq_none_iff.1 hs
    have hsilent := RuleSet.substitution?_eq_none_iff.1 hnone .sharedBoundary (by decide)
    exact absurd htouch.applies (hsilent _ _ htouch.sublist)
  · exact hgone

/-- A range that meets that of a linked quantity meets it at hand after what is implied is
added. -/
theorem meets_grown_initial (hout : Settled out) (hr : Ranges out e x p) {w : Identity}
    (hl : Links out w e) (hne : w ≠ e) (hr' : Ranges out w p y)
    (hleast : ∀ v lo, C v → Ranges out v lo p → x ≤ lo)
    (hC : ∀ v w, C v → Links out v w → C w) :
    Meets C e x p y ((initial out).grown .standard) := by
  rw [hout.initial_eq]
  obtain ⟨extra, hextra⟩ :=
    @GadgetSet.exists_addAll_eq_append out (fresh .standard ⟨out, out⟩)
  have hgrown : (grown .standard ⟨out, out⟩).current = out ++ extra := hextra
  have hdistinct : GadgetSet.Distinct (out ++ extra) := hextra ▸ hout.distinct.addAll
  have hfirst : AllRanges C (fun lo hi => hi = p → x ≤ lo) ⟨out, out⟩ := by
    intro v lo hi hv hrv hp
    exact hleast v lo hv (hp ▸ hrv)
  refine ⟨hout.distinct.addAll, hfirst.grown (fun v w _ hl => hl) hC,
    hr.mono fun g hg => GadgetSet.subset_addAll hg, .inl ?_⟩
  have hseen : Ranges (grown .standard ⟨out, out⟩).seen e p y :=
    ranges_seen_of_links (s := ⟨out, out⟩) hl hr' hne (hout.witness_of_ranges hr)
  obtain ⟨h, hh, hupper⟩ : Ranges (out ++ extra) e p y := hgrown ▸ hseen
  obtain ⟨g, hg, hlower⟩ := hr
  -- the range of the linked quantity is new, since there is one range at most
  have hh' : Gadget.bounds h ∈ extra := by
    refine (List.mem_append.1 hh).resolve_left fun hold => ?_
    have hxp := hout.ranges_lt ⟨g, hg, hlower⟩
    have hends := hout.ranges_unique ⟨g, hg, hlower⟩ ⟨h, hold, hupper⟩
    omega
  refine ⟨g, h, hlower, hupper, ?_, fun b hb hvalue => ?_⟩
  · rw [hgrown]
    exact (List.singleton_sublist.2 hg).append (List.singleton_sublist.2 hh')
  · rw [hgrown] at hb
    have hgextra : Gadget.bounds g ∉ extra :=
      fun hmem => (List.nodup_append.1 hdistinct.nodup).2.2 _ hg _ hmem rfl
    have hsub := sublist_of_sublist_append hb hgextra
    obtain ⟨lo, hi, hlo, hhi, -⟩ := (hout.valid_bounds (hsub.subset List.mem_cons_self)).range
    exact hout.not_sublist_bounds ⟨hvalue, hlo, hhi⟩ hlower hsub

end OptimizerState

/-! ## Optimizing again -/

/-- Both ends are ends of ranges of a quantity or of those that are said to equal it. -/
def EndsFrom (gadgets : List Gadget) (u : Identity) (lo hi : Int) : Prop :=
  (∃ v y, Alike gadgets u v ∧ Ranges gadgets v lo y) ∧
    ∃ v x, Alike gadgets u v ∧ Ranges gadgets v x hi

theorem EndsFrom.intersect {gadgets : List Gadget} {u : Identity} {a b c d : Int}
    (h : EndsFrom gadgets u a b) (h' : EndsFrom gadgets u c d) :
    EndsFrom gadgets u (max a c) (min b d) := by
  constructor
  · rcases Int.le_total a c with hle | hle
    · rw [Int.max_eq_right hle]
      exact h'.1
    · rw [Int.max_eq_left hle]
      exact h.1
  · rcases Int.le_total b d with hle | hle
    · rw [Int.min_eq_left hle]
      exact h.2
    · rw [Int.min_eq_right hle]
      exact h'.2

namespace Settled

variable {out : List Gadget} {u v w : Identity}

/-- What equals a number is that number for every witness that it is linked to. -/
theorem fixes_of_links (h : Settled out) (hv : v.visibility = .witness) (hl : Links out v w)
    {n : Int} (hn : Fixes out w n) : Fixes out v n := by
  refine h.links_trans hl hn ?_
  rintro rfl
  cases hv

/-- Of the ranges of a class that end in the same number, one goes down furthest. -/
theorem exists_least_range (h : Settled out) {x p : Int} (hv : Alike out u v)
    (hr : Ranges out v x p) : ∃ e x₀, Alike out u e ∧ Ranges out e x₀ p ∧
      ∀ w z, Alike out u w → Ranges out w z p → x₀ ≤ z := by
  have hbelow : ∀ z, (∃ w, Alike out u w ∧ Ranges out w z p) → Bounds.least ≤ z := by
    rintro z ⟨w, -, b, hb, hspans⟩
    obtain ⟨lo, hi, hlo, -, hmin, -⟩ := (h.valid_bounds hb).range
    have heq : some z = some lo := hspans.min.symm.trans hlo
    rw [Option.some.inj heq]
    exact hmin
  obtain ⟨x₀, ⟨e, he, hre⟩, hleast⟩ :=
    Int.exists_least_of_bdd ⟨Bounds.least, hbelow⟩ ⟨x, v, hv, hr⟩
  exact ⟨e, x₀, he, hre, fun w z hw hr => hleast z ⟨w, hw, hr⟩⟩

end Settled

namespace Optimizer

open OptimizerState

variable {cap : Nat} {gadgets out : List Gadget} {t : OptimizerState}

theorem kept_of_reaches (hcheck : ∀ g ∈ gadgets, g.check = .ok ())
    (hreach : Reaches .standard (initial gadgets) t) (hstable : t.step .standard = .stable out) :
    Kept out t := by
  exact hreach.keeps_within (fun s _ hs => hs.grown) (fun s t ht hs hsub => hs.substitute? ht hsub)
    (linksWithin_of_stable hstable) ⟨KeptByRules.initial hcheck, fun v lo hi hr => .inl hr.covers⟩

/-- Ranges are carried from a quantity that is not said to be a number. -/
theorem carried_of_not_fixes (hcheck : ∀ g ∈ gadgets, g.check = .ok ())
    (h : optimize .standard cap gadgets = .ok out) {u : Identity} (hu : ∀ n, ¬ Fixes out u n) :
    Carried out u := by
  have hout := settled_of_optimize hcheck h
  obtain ⟨t, hreach, hstable⟩ := optimize_eq_ok h
  intro w lo hi hl hw hr
  have hwit := hout.witness_of_ranges hr
  have htight : Tight (fun v => v.visibility = .witness ∧ ∀ n, ¬ Fixes out v n) t := by
    intro v lo hi hv hr
    refine ((kept_of_reaches hcheck hreach hstable).ranges v lo hi hr).resolve_right ?_
    rintro ⟨n, hn, -⟩
    exact hv.2 n hn
  refine htight.carried hout hstable (fun v w hv hvw hw => ⟨hw, fun n hn => ?_⟩) ⟨hwit, hu⟩ w lo hi
    hl hw hr
  exact hv.2 n (hout.fixes_of_links hv.1 hvw hn)

/-- If no ranges of a class meet, they are carried where a run that starts with them ends. -/
theorem carried_of_not_meet (hout : Settled out) (hreach : Reaches .standard (initial out) t)
    (hstable : t.step .standard = .stable out) {u : Identity}
    (hmeet : ∀ v w x p y, Alike out u v → Alike out u w → Ranges out v x p → ¬ Ranges out w p y) :
    Carried out u := by
  have hC := hout.alike_of_links u
  have hwithin : LinksWithin out t := linksWithin_of_stable hstable
  have hkeeps : AllRanges (Alike out u) (EndsFrom out u) t ∧ Tight (Alike out u) t := by
    refine hreach.keeps_within
      (P := fun s => AllRanges (Alike out u) (EndsFrom out u) s ∧ Tight (Alike out u) s)
      (fun s hs h => ⟨h.1.grown hs hC, h.2.grown⟩) (fun s t _ h hsub => ?_) hwithin ?_
    · refine ⟨h.1.substitute? hsub fun _ _ _ _ => EndsFrom.intersect, ?_⟩
      refine h.2.substitute? hsub fun v x p y hv hx hy _ => ?_
      obtain ⟨-, w, x', hw, hx'⟩ := h.1 v x p hv hx
      obtain ⟨⟨w', y', hw', hy'⟩, -⟩ := h.1 v p y hv hy
      exact hmeet w w' x' p y' hw hw' hx' hy'
    · rw [hout.initial_eq]
      exact ⟨fun v lo hi hv hr => ⟨⟨v, hi, hv, hr⟩, v, lo, hv, hr⟩, fun v lo hi _ hr => hr.covers⟩
  exact hkeeps.2.carried hout hstable (fun v w hv hl _ => hC v w hv hl) (.inl rfl)

/-- If ranges of a class meet, no run that starts with them comes back to them. -/
theorem not_stable_of_meet (hout : Settled out) (hreach : Reaches .standard (initial out) t)
    {u v w : Identity} {x p y : Int} (hv : Alike out u v) (hw : Alike out u w)
    (hx : Ranges out v x p) (hy : Ranges out w p y) : t.step .standard ≠ .stable out := by
  intro hstable
  have hC := hout.alike_of_links u
  have hwithin : LinksWithin out t := linksWithin_of_stable hstable
  obtain ⟨e, x₀, he, hr, hleast⟩ := hout.exists_least_range hv hx
  have hxp := hout.ranges_lt hr
  have hpy := hout.ranges_lt hy
  have hne : w ≠ e := by
    rintro rfl
    have hends := hout.ranges_unique hr hy
    omega
  have hfirst : Meets (Alike out u) e x₀ p y ((initial out).grown .standard) :=
    meets_grown_initial hout hr (hout.links_of_alike hw he hne) hne hy hleast hC
  -- nothing is substituted before the first implications are drawn
  have hkeeps : t = initial out ∨ Meets (Alike out u) e x₀ p y t := by
    refine hreach.keeps_within (P := fun s => s = initial out ∨ Meets (Alike out u) e x₀ p y s)
      (fun s hs h => ?_) (fun s t _ h hsub => ?_) hwithin (.inl rfl)
    · rcases h with rfl | h
      · exact .inr hfirst
      · exact .inr (h.grown hs hC)
    · rcases h with rfl | h
      · rw [hout.initial_eq, substitute?, hout.substitution] at hsub
        cases hsub
      · exact .inr (h.substitute? hsub he hxp hpy)
  have hgrown : Meets (Alike out u) e x₀ p y (t.grown .standard) := by
    rcases hkeeps with rfl | h
    · exact hfirst
    · exact h.grown hwithin hC
  obtain ⟨-, hsub, -, hcurrent⟩ := step_stable_cases hstable
  exact hgrown.not_ranges_of_substitute?_eq_none hsub (hcurrent ▸ hr)

/-- Gadgets that are left as they are carry all their ranges. -/
theorem carried_of_optimize_eq (hout : Settled out) (h : optimize .standard cap out = .ok out)
    (u : Identity) : Carried out u := by
  obtain ⟨t, hreach, hstable⟩ := optimize_eq_ok h
  refine carried_of_not_meet hout hreach hstable fun v w x p y hv hw hx hy => ?_
  exact not_stable_of_meet hout hreach hv hw hx hy hstable

/-- **Optimizing twice.** What the optimizer gives under all rules implies nothing that it does not
say, but for ranges carried from a witness that it says to equal a disclosed quantity. Optimizing it
again, in one step or more, leaves it as it is if and only if it says these ranges too. -/
theorem optimize_optimize_iff (cap : Nat) (gadgets out : List Gadget)
    (hcheck : ∀ g ∈ gadgets, g.check = .ok ()) (h : optimize .standard cap gadgets = .ok out) :
    (∀ g ∈ RuleSet.standard.implied out, GadgetSet.has out g = true ∨
      ∃ e b, .equality e ∈ out ∧ .bounds b ∈ out ∧ e.carry? b = some g ∧
        Pinned out b.value.identity) ∧
    ∀ cap', 0 < cap' → (optimize .standard cap' out = .ok out ↔
      ∀ g ∈ RuleSet.standard.implied out, GadgetSet.has out g = true) := by
  have hout := settled_of_optimize hcheck h
  refine ⟨fun g hg => ?_, fun cap' hcap => ⟨fun hagain g hg => ?_, fun hhas => ?_⟩⟩
  · rcases hout.has_or_carries hg with hhas | ⟨e, b, he, hb, hcarry, hnot⟩
    · exact .inl hhas
    · refine .inr ⟨e, b, he, hb, hcarry, ?_⟩
      by_contra hpinned
      exact hnot (carried_of_not_fixes hcheck h fun n hn => hpinned ⟨_, rfl, hn⟩)
  · rcases hout.has_or_carries hg with hhas | ⟨e, b, -, -, -, hnot⟩
    · exact hhas
    · exact absurd (carried_of_optimize_eq hout hagain _) hnot
  · exact hout.optimize_eq hhas hcap

theorem optimize_optimize_iff_linkedRanges :
    optimize .standard 5 (linkedRanges 5) = .ok linkedIntersections ∧
      optimize .standard 1 linkedIntersections = .ok linkedIntersections := by
  have h : optimize .standard 5 (linkedRanges 5) = .ok linkedIntersections := by decide +kernel
  have htwice := (optimize_optimize_iff 5 _ _ (by decide +kernel) h).2 1 (by decide)
  exact ⟨h, htwice.2 (by decide +kernel)⟩

/-- Two ranges of one quantity that meet, and a range of another quantity that equals it. -/
def meetingRanges : List Gadget :=
  [.equality ⟨sealedInteger "a", sealedInteger "b"⟩,
    .bounds ⟨sealedInteger "a", .constant (.integer 0), .constant (.integer 10)⟩,
    .bounds ⟨sealedInteger "a", .constant (.integer 10), .constant (.integer 20)⟩,
    .bounds ⟨sealedInteger "b", .constant (.integer 10), .constant (.integer 30)⟩]

/-- What is left of ranges that meet in `10`. Each range was carried to the other quantity too, and
was taken out there. -/
def meetingRest : List Gadget :=
  [.equality ⟨sealedInteger "a", sealedInteger "b"⟩,
    .bounds ⟨sealedInteger "b", .constant (.integer 10), .constant (.integer 20)⟩,
    .bounds ⟨sealedInteger "a", .constant (.integer 10), .constant (.integer 30)⟩,
    .equality ⟨sealedInteger "a", .constant (.integer 10)⟩,
    .equality ⟨sealedInteger "b", .constant (.integer 10)⟩]

/-- Optimizing twice is not always optimizing once. -/
theorem optimize_meetingRest_ne :
    (∀ g ∈ meetingRanges, g.check = .ok ()) ∧
      (∀ cap, 10 ≤ cap → optimize .standard cap meetingRanges = .ok meetingRest) ∧
      (∃ g ∈ RuleSet.standard.implied meetingRest, GadgetSet.has meetingRest g = false) ∧
      ∀ cap, optimize .standard cap meetingRest ≠ .ok meetingRest := by
  refine ⟨by decide +kernel, fun cap hcap => ?_, by decide +kernel, fun cap h => ?_⟩
  · have hrun : run? .standard 10 (.initial meetingRanges) = some (.ok meetingRest) := by
      decide +kernel
    exact optimize_eq_of_run? (run?_mono hrun hcap)
  · obtain ⟨out, hout, hne⟩ : ∃ out, optimize .standard 10 meetingRest = .ok out ∧
        out ≠ meetingRest := ⟨_, rfl, by decide +kernel⟩
    exact hne (optimize_eq_ok_unique hout h)

end Optimizer

end Attestation
