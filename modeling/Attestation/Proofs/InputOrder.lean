import Attestation.Proofs.Idempotence
import Attestation.Proofs.Permanence

/-!
# The order of gadgets

Substitutions take gadgets out, and which of several is made depends on the order of the gadgets. So
gadgets in another order may come to another result. This module says how far they can differ.

No rule compares bounds with a number that their quantity is said to be. A result in which they
disagree is not consistent (`Consistent`), and such gadgets hold under no assignment. Whether
gadgets come to a consistent result does not depend on their order, and consistent results say the
same but for bounds of quantities that they say to be a number (`Optimizer.optimize_order`).
`Optimizer.optimize_crossedRanges_ne` shows that neither can be left out.

The argument takes one consistent result and follows another run. All that the run can come to is
explained by the result (`Explained`): equalities are among those of the result, and a range holds
the number that its quantity is said to be, or else a range of the result (`Admits`). This is enough
for no contradiction to be found (`Explained.contradiction?_eq_none`). What is needed of the one
result is that it accounts for the gadgets it was made from (`Accounts`).
-/

namespace Attestation

/-- No bounds exclude a number that their quantity is said to be. -/
def Consistent (gadgets : List Gadget) : Prop :=
  ∀ v lo hi n, Ranges gadgets v lo hi → Fixes gadgets v n → lo ≤ n ∧ n ≤ hi

/-- A range of a quantity is in accordance with gadgets: they say the quantity to be a number in it,
or they do not say it to be a number and have a range for it that says as much. -/
def Admits (gadgets : List Gadget) (v : Identity) (lo hi : Int) : Prop :=
  (∃ n, Fixes gadgets v n ∧ lo ≤ n ∧ n ≤ hi) ∨
    (∀ n, ¬ Fixes gadgets v n) ∧ Covers gadgets v lo hi

variable {gadgets gadgets' out out' current : List Gadget} {u v w : Identity} {lo hi n k : Int}

/-- Gadgets that are not consistent hold under no assignment. -/
theorem not_satisfies_of_not_consistent {hashing : Hashing} {σ : Assignment}
    (h : ¬ Consistent gadgets) : ¬ Satisfies hashing σ gadgets := by
  simp only [Consistent, not_forall] at h
  obtain ⟨v, lo, hi, n, ⟨b, hb, hspans⟩, ⟨e, x, y, he, hxy, hx, hy⟩, hnot⟩ := h
  intro hsat
  obtain ⟨k, hk, hle⟩ := (Bounds.holds_iff hspans.min hspans.max).1 (hsat _ hb)
  have hn : σ.of b.value = .integer n := by
    rw [σ.of_eq_of_identity_eq (hspans.value.trans hx.symm), hxy.of_eq (hsat _ he)]
    exact σ.of_eq_integer (Variable.integer?_eq_some_iff_identity.2 hy)
  obtain rfl : k = n := Value.integer.inj (hk.symm.trans hn)
  exact hnot hle

/-! ## Gadgets that are the same contradict alike -/

theorem Membership.exists_excluded?_of_same {a b : Membership} (h : a.same b = true)
    {error : Diagnostic} (hb : b.excluded? = some error) : ∃ error', a.excluded? = some error' := by
  obtain ⟨hmember, -, hsub⟩ := Membership.same_iff.1 h
  obtain ⟨hvisibility, hliteral⟩ := Identity.mk.inj hmember
  obtain ⟨hd, hsealed, hnot⟩ := exists_excluded?_iff.1 ⟨_, hb⟩
  refine exists_excluded?_iff.2 ⟨hvisibility.trans hd, hliteral ▸ hsealed, ?_⟩
  rw [Bool.eq_false_iff, ne_eq, hasElement_iff] at hnot ⊢
  exact fun hmem => hnot (hmember ▸ hsub hmem)

theorem MimcHash.exists_ambiguous?_of_same {a b a' b' : MimcHash} (ha : a'.same a = true)
    (hb : b'.same b = true) {error : Diagnostic} (h : a.ambiguous? b = some error) :
    ∃ error', a'.ambiguous? b' = some error' := by
  simp only [MimcHash.same, Bool.and_eq_true, Variable.same_iff] at ha hb
  obtain ⟨hpreimage, hdistinct⟩ := exists_ambiguous?_iff.1 ⟨_, h⟩
  refine exists_ambiguous?_iff.2 ⟨ha.1.trans (hpreimage.trans hb.1.symm), ?_⟩
  rw [distinctKnown_congr ha.2 hb.2]
  exact hdistinct

theorem links_of_samePair {a b c d : Variable} (h : samePair a b c d = true)
    (hl : Links gadgets a.identity b.identity) : Links gadgets c.identity d.identity := by
  rcases samePair_iff.1 h with ⟨hac, hbd⟩ | ⟨had, hbc⟩
  · rwa [← hac, ← hbd]
  · rw [← hbc, ← had]
    exact hl.symm

/-! ## What a consistent result accounts for -/

/-- A result that is settled and consistent, as far as other runs of the same gadgets depend
on it. -/
structure Accounts (gadgets out : List Gadget) : Prop where
  settled : Settled out
  carried : ∀ u, (∀ n, ¬ Fixes out u n) → Carried out u
  has : ∀ g ∈ gadgets, g.lasts = true → GadgetSet.has out g = true
  single : ∀ m x, .membership m ∈ gadgets → m.set = [x] → m.member.identity ≠ x.identity →
    Links out m.member.identity x.identity
  excluded : ∀ m, .membership m ∈ gadgets → m.excluded? = none
  ranges : ∀ v lo hi, Ranges gadgets v lo hi → Admits out v lo hi

theorem Settled.fixes_unique (h : Settled out) (hn : Fixes out v n) (hk : Fixes out v k) :
    n = k := by
  by_contra hne
  have hids : (⟨.disclosed, .integer n⟩ : Identity) ≠ ⟨.disclosed, .integer k⟩ := by simpa using hne
  exact hids (h.eq_of_links (h.links_trans hn.symm hk hids) ⟨rfl, rfl⟩ ⟨rfl, rfl⟩)

namespace Accounts

/-- Ranges are admitted of all witnesses of a class. -/
theorem admits_of_alike (h : Accounts gadgets out) (huv : Alike out u v)
    (hu : u.visibility = .witness) (hv : v.visibility = .witness) (hr : Admits out u lo hi) :
    Admits out v lo hi := by
  rcases huv with rfl | hl
  · exact hr
  rcases hr with ⟨n, hn, hle⟩ | ⟨hnot, lo', hi', hlo, hhi, hr⟩
  · exact .inl ⟨n, h.settled.fixes_of_links hv hl.symm hn, hle⟩
  · refine .inr ⟨fun n hn => hnot n (h.settled.fixes_of_links hu hl hn), lo', hi', hlo, hhi, ?_⟩
    exact h.carried u hnot v lo' hi' hl hv hr

/-- Two ranges of a quantity that are admitted hold a number that it is said to be, or the one range
that it has in the result. -/
theorem admits_cases (h : Accounts gadgets out) {a b c d : Int} (hr : Admits out v a b)
    (hr' : Admits out v c d) :
    (∃ n, Fixes out v n ∧ a ≤ n ∧ n ≤ b ∧ c ≤ n ∧ n ≤ d) ∨
      (∀ n, ¬ Fixes out v n) ∧ ∃ lo hi, Ranges out v lo hi ∧ lo < hi ∧
        a ≤ lo ∧ hi ≤ b ∧ c ≤ lo ∧ hi ≤ d := by
  rcases hr with ⟨n, hn, han, hnb⟩ | ⟨hnot, lo, hi, hlo, hhi, hr⟩
  · rcases hr' with ⟨k, hk, hck, hkd⟩ | ⟨hnot, -⟩
    · obtain rfl := h.settled.fixes_unique hn hk
      exact .inl ⟨n, hn, han, hnb, hck, hkd⟩
    · exact absurd hn (hnot n)
  · rcases hr' with ⟨k, hk, -⟩ | ⟨-, lo', hi', hlo', hhi', hr'⟩
    · exact absurd hk (hnot k)
    · obtain ⟨rfl, rfl⟩ := h.settled.ranges_unique hr hr'
      exact .inr ⟨hnot, lo, hi, hr, h.settled.ranges_lt hr, hlo, hhi, hlo', hhi'⟩

theorem admits_intersect (h : Accounts gadgets out) {a b c d : Int} (hr : Admits out v a b)
    (hr' : Admits out v c d) : Admits out v (max a c) (min b d) := by
  rcases h.admits_cases hr hr' with ⟨n, hn, _, _, _, _⟩ | ⟨hnot, lo, hi, hrange, _, _, _, _, _⟩
  · exact .inl ⟨n, hn, by omega, by omega⟩
  · exact .inr ⟨hnot, lo, hi, by omega, by omega, hrange⟩

/-- A quantity with ranges that meet in a number is said to be that number. -/
theorem fixes_of_meet (h : Accounts gadgets out) {x p y : Int} (hr : Admits out v x p)
    (hr' : Admits out v p y) : Fixes out v p := by
  rcases h.admits_cases hr hr' with ⟨n, hn, _, _, _, _⟩ | ⟨_, lo, hi, _, _, _, _, _, _⟩
  · obtain rfl : n = p := by omega
    exact hn
  · omega

theorem le_of_admits (h : Accounts gadgets out) {a b c d : Int} (hr : Admits out v a b)
    (hr' : Admits out v c d) : a ≤ d := by
  rcases h.admits_cases hr hr' with ⟨n, hn, _, _, _, _⟩ | ⟨_, lo, hi, _, _, _, _, _, _⟩
  · omega
  · omega

/-- Inequalities are not of something with itself, since they last. -/
theorem not_sameOperand (h : Accounts gadgets out) {i : Inequality}
    (hi : .inequality i ∈ gadgets) : sameOperand i.left i.right = false := by
  rw [Bool.eq_false_iff]
  intro hsame
  have hnot : distinctKnown i.left i.right = false := by
    rw [Bool.eq_false_iff, ne_eq, distinctKnown_iff]
    exact fun hknown => hknown.2.2 (sameOperand_iff.1 hsame).1
  have hlasts : (Gadget.inequality i).lasts = true := by simp [Gadget.lasts, hnot]
  obtain ⟨j, hj, hpair⟩ := GadgetSet.exists_of_has_inequality (h.has _ hi hlasts)
  have hfalse := h.settled.not_sameOperand_inequality hj
  rw [sameOperand_eq_of_samePair hpair, hsame] at hfalse
  cases hfalse

/-- Quantities that are said to differ are not said to be equal. -/
theorem not_links (h : Accounts gadgets out) {i : Inequality} (hi : .inequality i ∈ gadgets) :
    ¬ Links out i.left.identity i.right.identity := by
  intro hl
  by_cases hlasts : (Gadget.inequality i).lasts = true
  · obtain ⟨j, hj, hpair⟩ := GadgetSet.exists_of_has_inequality (h.has _ hi hlasts)
    exact h.settled.not_links hj (links_of_samePair (samePair_symm hpair) hl)
  · obtain ⟨hleft, hright, hne⟩ := distinctKnown_iff.1 (by simpa [Gadget.lasts] using hlasts)
    exact hne (h.settled.eq_of_links hl hleft hright)

/-- One preimage has no two known images, since hashes last. -/
theorem ambiguous?_eq_none (h : Accounts gadgets out) {a b : MimcHash}
    (ha : .mimcHash a ∈ gadgets) (hb : .mimcHash b ∈ gadgets) : a.ambiguous? b = none := by
  refine Option.eq_none_iff_forall_ne_some.2 fun error herror => ?_
  obtain ⟨a', ha', hsame⟩ := GadgetSet.exists_of_has_mimcHash (h.has _ ha rfl)
  obtain ⟨b', hb', hsame'⟩ := GadgetSet.exists_of_has_mimcHash (h.has _ hb rfl)
  obtain ⟨error', herror'⟩ := MimcHash.exists_ambiguous?_of_same hsame hsame' herror
  have hne : a' ≠ b' := by
    rintro rfl
    exact (distinctKnown_iff.1 (MimcHash.exists_ambiguous?_iff.1 ⟨_, herror'⟩).2).2.2 rfl
  have hsub : [Gadget.mimcHash a', .mimcHash b'].Subperm out :=
    List.subperm_of_subset (by simpa using hne) (by simp [ha', hb'])
  exact h.settled.not_finds hsub (.ambiguous (.refl _) herror')

end Accounts

/-! ## What another run can come to -/

/-- Gadgets at hand that a result explains. -/
structure Explained (gadgets out current : List Gadget) : Prop where
  check : ∀ g ∈ current, g.check = .ok ()
  equality : ∀ e, .equality e ∈ current →
    sameOperand e.left e.right = true ∨ Links out e.left.identity e.right.identity
  ranges : ∀ v lo hi, Ranges current v lo hi → Admits out v lo hi
  given : ∀ g ∈ current, g.isGiven = true → g ∈ gadgets

namespace Explained

theorem alike (h : Explained gadgets out current) (hl : Links current v w) : Alike out v w := by
  obtain ⟨e, x, y, he, hxy, rfl, rfl⟩ := hl
  have hsides : Alike out e.left.identity e.right.identity :=
    (h.equality e he).imp (fun hsame => (sameOperand_iff.1 hsame).1.symm) id
  rcases hxy with rfl | rfl
  · exact hsides
  · exact hsides.symm

theorem witness_of_ranges (h : Explained gadgets out current) (hr : Ranges current v lo hi) :
    v.visibility = .witness := by
  obtain ⟨b, hb, hspans⟩ := hr
  exact hspans.value ▸ (Bounds.check_eq_ok_iff.1 (h.check _ hb)).witness

/-- What gadgets are made from is explained by a result that accounts for them. -/
theorem initial (hacc : Accounts gadgets out) (hsub : gadgets' ⊆ gadgets)
    (hcheck : ∀ g ∈ gadgets', g.check = .ok ()) :
    Explained gadgets out (OptimizerState.initial gadgets').current where
  check := KeptByRules.initial hcheck
  equality e he := by
    have hmem := hsub (GadgetSet.mem_ofList he)
    by_cases hsame : sameOperand e.left e.right = true
    · exact .inl hsame
    · have hlasts : (Gadget.equality e).lasts = true := by simpa [Gadget.lasts] using hsame
      exact .inr (GadgetSet.has_equality_iff.1 (hacc.has _ hmem hlasts))
  ranges v lo hi hr := hacc.ranges v lo hi ((GadgetSet.ranges_ofList.1 hr).mono hsub)
  given g hg _ := hsub (GadgetSet.mem_ofList hg)

variable {rules : RuleSet} {s t : OptimizerState}

theorem grown (h : Explained gadgets out s.current) (hacc : Accounts gadgets out) :
    Explained gadgets out (s.grown rules).current where
  check := KeptByRules.check.grown h.check
  equality e he := by
    rcases GadgetSet.mem_addAll he with he | he
    · exact h.equality e he
    · obtain ⟨matched, hdraws, hsub⟩ := OptimizerState.mem_fresh he
      obtain ⟨hne, u, hleft, hright⟩ := hdraws.exists_links
      have halike := hacc.settled.alike_trans (h.alike (hleft.mono hsub)) (h.alike (hright.mono hsub))
      exact .inr (halike.resolve_left hne.symm)
  ranges v lo hi hr := by
    rcases OptimizerState.ranges_grown.1 hr with hr | ⟨b, hb, hspans⟩
    · exact h.ranges v lo hi hr
    · obtain ⟨matched, hdraws, hsub⟩ := OptimizerState.mem_fresh hb
      have hvalid := Bounds.check_eq_ok_iff.1 (hdraws.check fun m hm => h.check m (hsub hm))
      have hv : v.visibility = .witness := hspans.value ▸ hvalid.witness
      obtain ⟨u, hl, hranges⟩ := hdraws.exists_ranges hspans
      have hu := hranges.mono hsub
      exact hacc.admits_of_alike (h.alike (hl.mono hsub)) (h.witness_of_ranges hu) hv
        (h.ranges _ lo hi hu)
  given := (KeptByRules.given gadgets).grown h.given

theorem substitute? (h : Explained gadgets out s.current) (hacc : Accounts gadgets out)
    (ht : s.substitute? rules = some t) : Explained gadgets out t.current where
  check := KeptByRules.check.substitute? ht h.check
  equality e he := by
    obtain ⟨matched, new, others, hmakes, hperm, rfl⟩ := OptimizerState.substitute?_eq_some ht
    have hmatched : matched ⊆ s.current :=
      fun m hm => hperm.symm.subset (List.mem_append_left _ hm)
    rcases GadgetSet.mem_addAll he with he | he
    · exact h.equality e (hperm.symm.subset (List.mem_append_right _ he))
    rcases hmakes.equality_cases he with ⟨x, p, y, hx, hy, hright⟩ | hm
    · have hx' := h.ranges _ _ _ (hx.mono hmatched)
      have hy' := h.ranges _ _ _ (hy.mono hmatched)
      rw [hright]
      exact .inr (hacc.fixes_of_meet hx' hy')
    · have hm' := hmatched hm
      by_cases hne : e.left.identity = e.right.identity
      · -- elements of sets are disclosed
        have hd := (Membership.check_eq_ok_iff.1 (h.check _ hm')).disclosed e.right (by simp)
        refine .inl (sameOperand_iff.2 ⟨hne, .inl ?_⟩)
        rw [hne]
        exact hd
      · exact .inr (hacc.single _ e.right (h.given _ hm' rfl) rfl hne)
  ranges v lo hi hr := by
    obtain ⟨aMin, aMax, bMin, bMax, ha, hb, rfl, rfl⟩ :=
      OptimizerState.exists_ranges_of_substitute? ht hr
    exact hacc.admits_intersect (h.ranges _ _ _ ha) (h.ranges _ _ _ hb)
  given := (KeptByRules.given gadgets).substitute? ht h.given

/-- **No contradiction is found in gadgets that a result explains.** -/
theorem contradiction?_eq_none (h : Explained gadgets out current) (hacc : Accounts gadgets out) :
    rules.contradiction? current = none := by
  refine Option.eq_none_iff_forall_ne_some.2 fun error herror => ?_
  obtain ⟨matched, hfinds, hsub⟩ := RuleSet.contradiction?_eq_some herror
  cases hfinds with
  | @empty b _ hb =>
    have hvalid := Bounds.check_eq_ok_iff.1 (h.check _ (hsub List.mem_cons_self))
    rw [hvalid.empty?_eq_none] at hb
    cases hb
  | @disjoint a b _ _ hperm hab =>
    obtain ⟨aMin, aMax, bMin, bMax, hmeet, hapart⟩ := Bounds.exists_disjoint?_iff.1 ⟨_, hab⟩
    obtain ⟨ha, hb⟩ := hmeet.spans
    have hra := h.ranges _ _ _ ⟨a, hsub (hperm.symm.subset (by simp)), ha⟩
    have hrb := h.ranges _ _ _ ⟨b, hsub (hperm.symm.subset (by simp)), hb⟩
    have hle := hacc.le_of_admits hra hrb
    have hle' := hacc.le_of_admits hrb hra
    omega
  | @unequal e _ he =>
    obtain ⟨hleft, hright, hne⟩ := distinctKnown_iff.1 (Equality.exists_unequal?_iff.1 ⟨_, he⟩)
    rcases h.equality e (hsub List.mem_cons_self) with hsame | hl
    · exact hne (sameOperand_iff.1 hsame).1
    · exact hne (hacc.settled.eq_of_links hl hleft hright)
  | @reflexive i _ hi =>
    have hsame := Inequality.exists_reflexive?_iff.1 ⟨_, hi⟩
    rw [hacc.not_sameOperand (h.given _ (hsub List.mem_cons_self) rfl)] at hsame
    cases hsame
  | @denied e i _ _ hperm hei =>
    have hpair := Equality.exists_denied?_iff.1 ⟨_, hei⟩
    have hi := h.given (.inequality i) (hsub (hperm.symm.subset (by simp))) rfl
    rcases h.equality e (hsub (hperm.symm.subset (by simp))) with hsame | hl
    · rw [sameOperand_eq_of_samePair hpair, hacc.not_sameOperand hi] at hsame
      cases hsame
    · exact hacc.not_links hi (links_of_samePair hpair hl)
  | @excluded m _ hm =>
    rw [hacc.excluded m (h.given _ (hsub List.mem_cons_self) rfl)] at hm
    cases hm
  | @ambiguous a b _ _ hperm hab =>
    rw [hacc.ambiguous?_eq_none (h.given (.mimcHash a) (hsub (hperm.symm.subset (by simp))) rfl)
      (h.given (.mimcHash b) (hsub (hperm.symm.subset (by simp))) rfl)] at hab
    cases hab

end Explained

/-! ## Two runs -/

theorem OptimizerState.Reaches.seen_subset {rules : RuleSet} {s t : OptimizerState}
    (h : Reaches rules s t) : s.seen ⊆ t.seen :=
  h.keeps (P := fun u => s.seen ⊆ u.seen)
    (fun _ hs _ hg => GadgetSet.subset_addAll (hs hg))
    (fun _ _ hs ht _ hg => seen_subset_of_substitute? ht (hs hg)) fun _ hg => hg

namespace Optimizer

variable {cap cap' : Nat}

theorem excluded?_eq_none (h : optimize .standard cap gadgets = .ok out) {m : Membership}
    (hm : .membership m ∈ gadgets) : m.excluded? = none := by
  refine Option.eq_none_iff_forall_ne_some.2 fun error herror => ?_
  obtain ⟨m', hm', hsame⟩ := GadgetSet.exists_of_has_membership (GadgetSet.has_ofList hm)
  obtain ⟨error', herror'⟩ := Membership.exists_excluded?_of_same hsame herror
  exact RuleSet.not_finds (contradiction?_of_optimize h) (List.singleton_sublist.2 hm').subperm
    (.excluded herror')

/-- What becomes of a range: the result says as much, or it says the quantity to be a number
in it. -/
theorem covers_or_fixes (hcheck : ∀ g ∈ gadgets, g.check = .ok ())
    (h : optimize .standard cap gadgets = .ok out) (hr : Ranges gadgets v lo hi) :
    Covers out v lo hi ∨ ∃ n, Fixes out v n ∧ lo ≤ n ∧ n ≤ hi := by
  obtain ⟨t, hreach, hstable⟩ := optimize_eq_ok h
  have hseen : Ranges t.seen v lo hi := (GadgetSet.ranges_ofList.2 hr).mono hreach.seen_subset
  have hkept := (kept_of_reaches hcheck hreach hstable).ranges v lo hi hseen
  rwa [OptimizerState.current_of_step_stable hstable] at hkept

/-- A consistent result accounts for the gadgets it was made from. -/
theorem accounts_of_optimize (hcheck : ∀ g ∈ gadgets, g.check = .ok ())
    (h : optimize .standard cap gadgets = .ok out) (hcons : Consistent out) :
    Accounts gadgets out where
  settled := settled_of_optimize hcheck h
  carried _ hu := carried_of_not_fixes hcheck h hu
  has _ hg hlasts := has_of_optimize h hg hlasts
  single _ _ hm hx hne := links_of_single hcheck h hm hx hne
  excluded _ hm := excluded?_eq_none h hm
  ranges v lo hi hr := by
    rcases covers_or_fixes hcheck h hr with hcovers | hfixed
    · by_cases hany : ∃ n, Fixes out v n
      · obtain ⟨n, hn⟩ := hany
        obtain ⟨lo', hi', hlo, hhi, hr'⟩ := hcovers
        have hle := hcons v lo' hi' n hr' hn
        exact .inl ⟨n, hn, by omega, by omega⟩
      · exact .inr ⟨not_exists.1 hany, hcovers⟩
    · exact .inl hfixed

/-- Where one consistent result accounts for gadgets, another run on them has a result too. -/
theorem exists_explained (hacc : Accounts gadgets out) (hsub : gadgets' ⊆ gadgets)
    (hcheck : ∀ g ∈ gadgets', g.check = .ok ())
    (hcap : optimize .standard cap gadgets' ≠ .error (notConverged cap)) :
    ∃ out', optimize .standard cap gadgets' = .ok out' ∧ Explained gadgets out out' := by
  have hreaches : ∀ {t}, OptimizerState.Reaches .standard (.initial gadgets') t →
      Explained gadgets out t.current := fun hreach =>
    hreach.keeps (P := fun s => Explained gadgets out s.current) (fun _ hs => hs.grown hacc)
      (fun _ _ hs ht => hs.substitute? hacc ht) (Explained.initial hacc hsub hcheck)
  cases h : optimize .standard cap gadgets' with
  | ok out' =>
    obtain ⟨t, hreach, hstable⟩ := optimize_eq_ok h
    exact ⟨out', rfl, OptimizerState.current_of_step_stable hstable ▸ hreaches hreach⟩
  | error error =>
    rcases optimize_eq_error h with rfl | ⟨t, hreach, hstep⟩
    · exact absurd h hcap
    · have hsome := OptimizerState.step_eq_contradiction hstep
      rw [(hreaches hreach).contradiction?_eq_none hacc] at hsome
      cases hsome

end Optimizer

namespace Explained

/-- What a consistent result explains is consistent. -/
theorem consistent (h : Explained gadgets out out') (hacc : Accounts gadgets out) :
    Consistent out' := by
  intro v lo hi n hr hfixed
  have hn : Fixes out v n := by
    refine (h.alike hfixed).resolve_left ?_
    rintro rfl
    cases h.witness_of_ranges hr
  rcases h.ranges v lo hi hr with ⟨k, hk, hle⟩ | ⟨hnot, -⟩
  · exact hacc.settled.fixes_unique hn hk ▸ hle
  · exact absurd hn (hnot n)

theorem links (h : Explained gadgets out out') (hsettled : Settled out')
    (hl : Links out' v w) : Links out v w := by
  obtain ⟨e, x, y, he, hxy, rfl, rfl⟩ := hl
  have hlinks : Links out e.left.identity e.right.identity := by
    refine (h.equality e he).resolve_left ?_
    rw [hsettled.not_sameOperand_equality he]
    exact Bool.false_ne_true
  rcases hxy with rfl | rfl
  · exact hlinks
  · exact hlinks.symm

variable (hacc : Accounts gadgets out) (hacc' : Accounts gadgets' out')
  (h : Explained gadgets out out') (h' : Explained gadgets' out' out)

include hacc hacc' h h'

/-- Results that explain each other have the same ranges, but for quantities that are said to be a
number. -/
theorem ranges_of_not_fixes (hr : Ranges out v lo hi) (hnot : ∀ n, ¬ Fixes out v n) :
    Ranges out' v lo hi := by
  have hnot' : ∀ n, ¬ Fixes out' v n := fun n hn => hnot n (h.links hacc'.settled hn)
  have hcovers : Covers out' v lo hi := by
    rcases h'.ranges v lo hi hr with ⟨n, hn, -⟩ | ⟨-, hcovers⟩
    · exact absurd hn (hnot' n)
    · exact hcovers
  obtain ⟨lo', hi', hlo, hhi, hr'⟩ := hcovers
  rcases h.ranges v lo' hi' hr' with ⟨n, hn, -⟩ | ⟨-, lo'', hi'', hlo', hhi', hr''⟩
  · exact absurd hn (hnot n)
  · obtain ⟨rfl, rfl⟩ := hacc.settled.ranges_unique hr hr''
    have hlo_eq : lo = lo' := by omega
    have hhi_eq : hi = hi' := by omega
    rw [hlo_eq, hhi_eq]
    exact hr'

/-- Results that explain each other, made from the same gadgets, are the same, but for bounds of
quantities that are said to be a number. -/
theorem has_or_fixes {g : Gadget} (hg : g ∈ out) :
    GadgetSet.has out' g = true ∨ ∃ b n, g = .bounds b ∧ Fixes out b.value.identity n := by
  have hgiven : g.isGiven = true → GadgetSet.has out' g = true := by
    intro hgiven
    refine hacc'.has g (h'.given g hg hgiven) (hacc.settled.lasts hg ?_)
    rintro b rfl
    cases hgiven
  cases g with
  | equality e =>
    refine .inl (GadgetSet.has_equality_iff.2 (h'.links hacc.settled ?_))
    exact ⟨e, e.left, e.right, hg, .inl rfl, rfl, rfl⟩
  | bounds b =>
    by_cases hany : ∃ n, Fixes out b.value.identity n
    · obtain ⟨n, hn⟩ := hany
      exact .inr ⟨b, n, rfl, hn⟩
    · obtain ⟨lo, hi, hlo, hhi, -⟩ := (hacc.settled.valid_bounds hg).range
      have hspans : b.Spans b.value.identity lo hi := ⟨rfl, hlo, hhi⟩
      refine .inl ((GadgetSet.has_bounds_iff hspans).2 ?_)
      exact ranges_of_not_fixes hacc hacc' h h' ⟨b, hg, hspans⟩ (not_exists.1 hany)
  | inequality i => exact .inl (hgiven rfl)
  | membership m => exact .inl (hgiven rfl)
  | mimcHash m => exact .inl (hgiven rfl)
  | merkleTree m => exact .inl (hgiven rfl)

end Explained

/-! ## Results of gadgets in another order -/

/-- Whether gadgets are consistent shows in their equalities and bounds, taken two at a time. -/
theorem consistent_iff : Consistent gadgets ↔
    ∀ b ∈ gadgets.filterMap Gadget.bounds?, ∀ e ∈ gadgets.filterMap Gadget.equality?,
      ∀ range ∈ b.range?, ∀ other ∈ e.counterpart? b.value, ∀ n ∈ other.integer?,
        range.1 ≤ n ∧ n ≤ range.2 := by
  simp only [List.mem_filterMap, Gadget.bounds?_eq_some_iff, Gadget.equality?_eq_some_iff,
    exists_eq_right, Option.mem_def]
  constructor
  · rintro h b hb e he ⟨lo, hi⟩ hrange other hother n hn
    obtain ⟨hlo, hhi⟩ := Bounds.range?_eq_some_iff.1 hrange
    obtain ⟨x, hx, hvalue⟩ := Equality.counterpart?_eq_some hother
    exact h b.value.identity lo hi n ⟨b, hb, rfl, hlo, hhi⟩
      ⟨e, x, other, he, hx, hvalue, Variable.integer?_eq_some_iff_identity.1 hn⟩
  · rintro h v lo hi n ⟨b, hb, rfl, hlo, hhi⟩ ⟨e, x, y, he, hxy, hx, hy⟩
    have hn := Variable.integer?_eq_some_iff_identity.2 hy
    have hrange := Bounds.range?_eq_some_iff.2 ⟨hlo, hhi⟩
    by_cases hyv : y.identity = b.value.identity
    · -- both sides are the number
      have hn' : x.integer? = some n :=
        Variable.integer?_eq_some_iff_identity.2 (hx.trans (hyv.symm.trans hy))
      rcases hxy with rfl | rfl
      · exact h b hb _ he _ hrange y (by simp [Equality.counterpart?, Variable.same, hx]) n hn
      · exact h b hb _ he _ hrange x (by simp [Equality.counterpart?, Variable.same, hyv]) n hn'
    · refine h b hb e he _ hrange y ?_ n hn
      rcases hxy with rfl | rfl
      · simp [Equality.counterpart?, Variable.same, hx]
      · simp [Equality.counterpart?, Variable.same, hx, hyv]

instance (gadgets : List Gadget) : Decidable (Consistent gadgets) :=
  decidable_of_iff _ consistent_iff.symm

namespace Optimizer

open OptimizerState

/-- **The order of gadgets.** Let gadgets meet their contracts, and let the optimizer not run out of
steps under all rules, on them and on the same gadgets in another order. It comes to a consistent
result in one order if and only if it does in the other. The results then say the same, but for
bounds of quantities that they say to be a number. Gadgets with a result that is not consistent hold
under no assignment. -/
theorem optimize_order (cap cap' : Nat) (gadgets gadgets' : List Gadget)
    (hperm : gadgets.Perm gadgets') (hcheck : ∀ g ∈ gadgets, g.check = .ok ())
    (hcap : optimize .standard cap gadgets ≠ .error (notConverged cap))
    (hcap' : optimize .standard cap' gadgets' ≠ .error (notConverged cap')) :
    ((∃ out, optimize .standard cap gadgets = .ok out ∧ Consistent out) ↔
      ∃ out', optimize .standard cap' gadgets' = .ok out' ∧ Consistent out') ∧
    ∀ out, optimize .standard cap gadgets = .ok out →
      (Consistent out → ∀ out', optimize .standard cap' gadgets' = .ok out' →
        (∀ g ∈ out, GadgetSet.has out' g = true ∨
          ∃ b n, g = .bounds b ∧ Fixes out b.value.identity n) ∧
        ∀ g ∈ out', GadgetSet.has out g = true ∨
          ∃ b n, g = .bounds b ∧ Fixes out b.value.identity n) ∧
      (¬ Consistent out → ∀ hashing σ, ¬ Satisfies hashing σ gadgets) := by
  have hcheck' : ∀ g ∈ gadgets', g.check = .ok () := fun g hg => hcheck g (hperm.symm.subset hg)
  refine ⟨⟨?_, ?_⟩, fun out hout => ⟨fun hcons out' hout' => ?_, fun hnot hashing σ => ?_⟩⟩
  · rintro ⟨out, hout, hcons⟩
    have hacc := accounts_of_optimize hcheck hout hcons
    obtain ⟨out', hout', hexplained⟩ := exists_explained hacc hperm.symm.subset hcheck' hcap'
    exact ⟨out', hout', hexplained.consistent hacc⟩
  · rintro ⟨out', hout', hcons⟩
    have hacc' := accounts_of_optimize hcheck' hout' hcons
    obtain ⟨out, hout, hexplained⟩ := exists_explained hacc' hperm.subset hcheck hcap
    exact ⟨out, hout, hexplained.consistent hacc'⟩
  · have hacc := accounts_of_optimize hcheck hout hcons
    obtain ⟨_, heq, h⟩ := exists_explained hacc hperm.symm.subset hcheck' hcap'
    obtain rfl := Except.ok.inj (hout'.symm.trans heq)
    have hacc' := accounts_of_optimize hcheck' hout' (h.consistent hacc)
    obtain ⟨_, heq, h'⟩ := exists_explained hacc' hperm.subset hcheck hcap
    obtain rfl := Except.ok.inj (hout.symm.trans heq)
    refine ⟨fun g hg => h.has_or_fixes hacc hacc' h' hg, fun g hg => ?_⟩
    refine (h'.has_or_fixes hacc' hacc h hg).imp_right ?_
    rintro ⟨b, n, rfl, hn⟩
    exact ⟨b, n, rfl, h.links hacc'.settled hn⟩
  · rw [← satisfies_optimize hout hcheck]
    exact not_satisfies_of_not_consistent hnot

/-- Three ranges of a quantity that meet in `10`, of which two end at `x` and at `y`, and another
quantity that is `10` and at least `lo`. -/
def crossedRanges (lo x y : Int) : List Gadget :=
  [.bounds ⟨sealedInteger "a", .constant (.integer 0), .constant (.integer 10)⟩,
    .bounds ⟨sealedInteger "a", .constant (.integer 10), .constant (.integer x)⟩,
    .bounds ⟨sealedInteger "a", .constant (.integer 10), .constant (.integer y)⟩,
    .equality ⟨sealedInteger "b", .constant (.integer 10)⟩,
    .bounds ⟨sealedInteger "b", .constant (.integer lo), .constant (.integer 40)⟩]

/-- What is left of them, if the quantities are left with bounds from `lo` to `hi`. -/
def crossedRest (lo hi : Int) : List Gadget :=
  [.equality ⟨sealedInteger "b", .constant (.integer 10)⟩,
    .equality ⟨sealedInteger "a", .constant (.integer 10)⟩,
    .equality ⟨sealedInteger "b", sealedInteger "a"⟩,
    .bounds ⟨sealedInteger "a", .constant (.integer lo), .constant (.integer hi)⟩,
    .bounds ⟨sealedInteger "b", .constant (.integer lo), .constant (.integer hi)⟩]

theorem crossedRanges_perm (lo x y : Int) : (crossedRanges lo x y).Perm (crossedRanges lo y x) :=
  (List.Perm.swap _ _ _).cons _

theorem optimize_order_crossedRanges :
    optimize .standard 6 (crossedRanges 5 20 30) = .ok (crossedRest 10 30) ∧
      optimize .standard 6 (crossedRanges 5 30 20) = .ok (crossedRest 10 20) ∧
      ∀ g ∈ crossedRest 10 30, GadgetSet.has (crossedRest 10 20) g = true ∨
        ∃ b n, g = .bounds b ∧ Fixes (crossedRest 10 30) b.value.identity n := by
  have h : optimize .standard 6 (crossedRanges 5 20 30) = .ok (crossedRest 10 30) := by
    decide +kernel
  have h' : optimize .standard 6 (crossedRanges 5 30 20) = .ok (crossedRest 10 20) := by
    decide +kernel
  have horder := optimize_order 6 6 _ _ (crossedRanges_perm 5 20 30) (by decide +kernel)
    (by simp [h]) (by simp [h'])
  exact ⟨h, h', ((horder.2 _ h).1 (by decide +kernel) _ h').1⟩

/-- The result depends on the order of gadgets, and so does whether there is one. -/
theorem optimize_crossedRanges_ne :
    (∀ g ∈ crossedRanges 5 20 30 ++ crossedRanges 25 20 30, g.check = .ok ()) ∧
      (∀ lo, (crossedRanges lo 20 30).Perm (crossedRanges lo 30 20)) ∧
      ∀ cap, 6 ≤ cap →
        (optimize .standard cap (crossedRanges 5 20 30) = .ok (crossedRest 10 30) ∧
          optimize .standard cap (crossedRanges 5 30 20) = .ok (crossedRest 10 20) ∧
          ∃ g ∈ crossedRest 10 30, GadgetSet.has (crossedRest 10 20) g = false) ∧
        optimize .standard cap (crossedRanges 25 20 30) = .ok (crossedRest 25 30) ∧
        ∃ error, optimize .standard cap (crossedRanges 25 30 20) = .error error ∧
          error.kind = .contradiction := by
  have hrun : run? .standard 6 (.initial (crossedRanges 5 20 30)) =
      some (.ok (crossedRest 10 30)) := by decide +kernel
  have hrun' : run? .standard 6 (.initial (crossedRanges 5 30 20)) =
      some (.ok (crossedRest 10 20)) := by decide +kernel
  have hcrossed : run? .standard 6 (.initial (crossedRanges 25 20 30)) =
      some (.ok (crossedRest 25 30)) := by decide +kernel
  obtain ⟨error, hcrossed', hkind⟩ : ∃ error,
      run? .standard 6 (.initial (crossedRanges 25 30 20)) = some (.error error) ∧
        error.kind = .contradiction := ⟨_, rfl, rfl⟩
  refine ⟨by decide +kernel, fun lo => crossedRanges_perm lo 20 30, fun cap hcap => ⟨?_, ?_⟩⟩
  · exact ⟨optimize_eq_of_run? (run?_mono hrun hcap), optimize_eq_of_run? (run?_mono hrun' hcap),
      by decide +kernel⟩
  · exact ⟨optimize_eq_of_run? (run?_mono hcrossed hcap), error,
      optimize_eq_of_run? (run?_mono hcrossed' hcap), hkind⟩

end Optimizer

end Attestation
