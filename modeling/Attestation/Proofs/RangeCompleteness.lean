import Attestation.Proofs.Exhaustion
import Mathlib.Data.Set.Basic

/-!
# Contradictions between ranges

Rules look at ranges two at a time. This is enough to find out whether there is a number in all the
ranges of a quantity: if any two of them overlap, the largest of the lower ends lies in all of them
(`exists_mem_commonRange`). So of gadgets that are all bounds the optimizer finds a contradiction
exactly if the ranges of some quantity have nothing in common, and what it leaves otherwise says of
each quantity that it lies between the largest lower and the smallest upper end
(`Optimizer.optimize_ranges`).
-/

namespace Attestation

/-- The numbers that all ranges of a quantity have in common. -/
def commonRange (gadgets : List Gadget) (v : Identity) : Set Int :=
  {n | ∀ lo hi, Ranges gadgets v lo hi → lo ≤ n ∧ n ≤ hi}

/-- The lower or the upper ends of all bounds for a quantity. -/
def rangeEnds (pick : Bounds → Variable) (gadgets : List Gadget) (v : Identity) : List Int :=
  (gadgets.filterMap Gadget.bounds?).filterMap fun b =>
    if b.value.identity = v then (pick b).integer? else none

variable {gadgets : List Gadget} {v : Identity} {lo hi : Int} {hashing : Hashing} {σ : Assignment}

theorem mem_rangeEnds {pick : Bounds → Variable} {n : Int} : n ∈ rangeEnds pick gadgets v ↔
    ∃ b, .bounds b ∈ gadgets ∧ b.value.identity = v ∧ (pick b).integer? = some n := by
  simp only [rangeEnds, List.mem_filterMap, Gadget.bounds?_eq_some_iff, exists_eq_right,
    Option.ite_none_right_eq_some]

/-- The largest lower end of ranges is one of them. -/
theorem exists_ranges_of_max? (hcheck : ∀ g ∈ gadgets, g.check = .ok ())
    (h : (rangeEnds Bounds.min gadgets v).max? = some lo) : ∃ hi, Ranges gadgets v lo hi := by
  obtain ⟨b, hb, hvalue, hmin⟩ := mem_rangeEnds.1 (List.max?_eq_some_iff.1 h).1
  obtain ⟨-, hi, -, hmax, -⟩ := (Bounds.check_eq_ok_iff.1 (hcheck _ hb)).range
  exact ⟨hi, b, hb, hvalue, hmin, hmax⟩

theorem exists_ranges_of_min? (hcheck : ∀ g ∈ gadgets, g.check = .ok ())
    (h : (rangeEnds Bounds.max gadgets v).min? = some hi) : ∃ lo, Ranges gadgets v lo hi := by
  obtain ⟨b, hb, hvalue, hmax⟩ := mem_rangeEnds.1 (List.min?_eq_some_iff.1 h).1
  obtain ⟨lo, -, hmin, -⟩ := (Bounds.check_eq_ok_iff.1 (hcheck _ hb)).range
  exact ⟨lo, b, hb, hvalue, hmin, hmax⟩

/-- Where there is a range there is a largest lower end. -/
theorem Ranges.exists_max? (h : Ranges gadgets v lo hi) :
    ∃ lo', (rangeEnds Bounds.min gadgets v).max? = some lo' ∧
      ∀ x y, Ranges gadgets v x y → x ≤ lo' := by
  have hmem : ∀ x y, Ranges gadgets v x y → x ∈ rangeEnds Bounds.min gadgets v := by
    rintro x y ⟨b, hb, hspans⟩
    exact mem_rangeEnds.2 ⟨b, hb, hspans.value, hspans.min⟩
  cases hmax : (rangeEnds Bounds.min gadgets v).max? with
  | none => exact absurd (hmem _ _ h) (by simp [List.max?_eq_none_iff.1 hmax])
  | some lo' => exact ⟨lo', rfl, fun x y hr => (List.max?_eq_some_iff.1 hmax).2 x (hmem x y hr)⟩

theorem Ranges.exists_min? (h : Ranges gadgets v lo hi) :
    ∃ hi', (rangeEnds Bounds.max gadgets v).min? = some hi' ∧
      ∀ x y, Ranges gadgets v x y → hi' ≤ y := by
  have hmem : ∀ x y, Ranges gadgets v x y → y ∈ rangeEnds Bounds.max gadgets v := by
    rintro x y ⟨b, hb, hspans⟩
    exact mem_rangeEnds.2 ⟨b, hb, hspans.value, hspans.max⟩
  cases hmin : (rangeEnds Bounds.max gadgets v).min? with
  | none => exact absurd (hmem _ _ h) (by simp [List.min?_eq_none_iff.1 hmin])
  | some hi' => exact ⟨hi', rfl, fun x y hr => (List.min?_eq_some_iff.1 hmin).2 y (hmem x y hr)⟩

/-- **Ranges that overlap two by two have a number in common.** -/
theorem exists_mem_commonRange (hcheck : ∀ g ∈ gadgets, g.check = .ok ())
    (hpair : ∀ a b c d, Ranges gadgets v a b → Ranges gadgets v c d → a ≤ d) :
    ∃ n, n ∈ commonRange gadgets v := by
  by_cases hany : ∃ lo hi, Ranges gadgets v lo hi
  · obtain ⟨lo, hi, hr⟩ := hany
    obtain ⟨most, hmost, hle⟩ := hr.exists_max?
    obtain ⟨top, htop⟩ := exists_ranges_of_max? hcheck hmost
    exact ⟨most, fun x y hxy => ⟨hle x y hxy, hpair _ _ _ _ htop hxy⟩⟩
  · exact ⟨0, fun x y hxy => absurd ⟨x, y, hxy⟩ hany⟩

/-! ## What bounds say -/

section

variable (hcheck : ∀ g ∈ gadgets, g.check = .ok ()) (hbounds : ∀ g ∈ gadgets, ∃ b, g = .bounds b)

include hcheck hbounds

/-- Bounds say of each quantity that it is a number in its ranges. -/
theorem satisfies_iff_ranges : Satisfies hashing σ gadgets ↔
    ∀ v lo hi, Ranges gadgets v lo hi → ∃ n, σ.value v = .integer n ∧ lo ≤ n ∧ n ≤ hi := by
  constructor
  · rintro hsat v lo hi ⟨b, hb, rfl, hmin, hmax⟩
    exact (Bounds.holds_iff hmin hmax).1 (hsat _ hb)
  · intro h g hg
    obtain ⟨b, rfl⟩ := hbounds g hg
    obtain ⟨lo, hi, hmin, hmax, -⟩ := (Bounds.check_eq_ok_iff.1 (hcheck _ hg)).range
    exact (Bounds.holds_iff hmin hmax).2 (h _ lo hi ⟨b, hg, rfl, hmin, hmax⟩)

/-- Bounds say of each quantity that it lies between the largest of its lower ends and the smallest
of its upper ends. -/
theorem satisfies_iff_ends : Satisfies hashing σ gadgets ↔
    ∀ v lo hi, (rangeEnds Bounds.min gadgets v).max? = some lo →
      (rangeEnds Bounds.max gadgets v).min? = some hi →
      ∃ n, σ.value v = .integer n ∧ lo ≤ n ∧ n ≤ hi := by
  rw [satisfies_iff_ranges hcheck hbounds]
  constructor
  · intro h v lo hi hlo hhi
    obtain ⟨y, hr⟩ := exists_ranges_of_max? hcheck hlo
    obtain ⟨x, hr'⟩ := exists_ranges_of_min? hcheck hhi
    obtain ⟨n, hn, hle, -⟩ := h v lo y hr
    obtain ⟨n', hn', -, hle'⟩ := h v x hi hr'
    obtain rfl : n = n' := Value.integer.inj (hn.symm.trans hn')
    exact ⟨n, hn, hle, hle'⟩
  · intro h v lo hi hr
    obtain ⟨most, hmost, hle⟩ := hr.exists_max?
    obtain ⟨least, hleast, hge⟩ := hr.exists_min?
    obtain ⟨n, hn, h₁, h₂⟩ := h v most least hmost hleast
    have hlo := hle lo hi hr
    have hhi := hge lo hi hr
    exact ⟨n, hn, by omega, by omega⟩

/-- Numbers that all ranges of their quantities have in common make bounds hold. -/
theorem satisfies_choosing {f : Identity → Int} (hf : ∀ v, f v ∈ commonRange gadgets v) :
    Satisfies hashing (.choosing fun v => .integer (f v)) gadgets := by
  rw [satisfies_iff_ranges hcheck hbounds]
  rintro v lo hi ⟨b, hb, hspans⟩
  have hwitness := (Bounds.check_eq_ok_iff.1 (hcheck _ hb)).witness
  refine ⟨f v, Assignment.choosing_witness _ ?_, hf v lo hi ⟨b, hb, hspans⟩⟩
  rw [← hspans.value]
  exact hwitness

theorem admissible_of_bounds : ∀ g ∈ gadgets, g.Admissible := by
  intro g hg
  refine ⟨hcheck g hg, ?_⟩
  obtain ⟨b, rfl⟩ := hbounds g hg
  have hvalid := Bounds.check_eq_ok_iff.1 (hcheck _ hg)
  obtain ⟨lo, hi, hmin, hmax, -⟩ := hvalid.range
  simp only [Gadget.vars, List.mem_cons, List.not_mem_nil, or_false, forall_eq_or_imp, forall_eq]
  refine ⟨fun hd => ?_, fun _ => ?_, fun _ => ?_⟩
  · rw [hvalid.witness] at hd
    cases hd
  · rw [(Variable.integer?_eq_some_iff.1 hmin).2]
    rfl
  · rw [(Variable.integer?_eq_some_iff.1 hmax).2]
    rfl

end

namespace Optimizer

variable {cap : Nat} {out : List Gadget}

/-- In gadgets that can be optimized, the ranges of a quantity overlap two by two. -/
theorem le_of_ranges (hcheck : ∀ g ∈ gadgets, g.check = .ok ())
    (h : optimize .standard cap gadgets = .ok out) {a b c d : Int}
    (hr : Ranges gadgets v a b) (hr' : Ranges gadgets v c d) : a ≤ d := by
  obtain ⟨p, hp, hspans⟩ := GadgetSet.ranges_ofList.2 hr
  obtain ⟨q, hq, hspans'⟩ := GadgetSet.ranges_ofList.2 hr'
  by_cases hpq : p = q
  · subst hpq
    have hvalid := Bounds.check_eq_ok_iff.1 (KeptByRules.initial hcheck _ hp)
    exact hvalid.le hspans.min hspans'.max
  by_contra hlt
  have hmeet : p.Meet q a b c d :=
    ⟨hspans.value.trans hspans'.value.symm, hspans.min, hspans.max, hspans'.min, hspans'.max⟩
  obtain ⟨error, herror⟩ := Bounds.exists_disjoint?_iff.2 ⟨_, _, _, _, hmeet, .inr (by omega)⟩
  have hsub : [Gadget.bounds p, .bounds q].Subperm (GadgetSet.ofList gadgets) :=
    List.subperm_of_subset (by simpa using hpq) (by simp [hp, hq])
  exact RuleSet.not_finds (contradiction?_of_optimize h) hsub (.disjoint (.refl _) herror)

/-- **Contradictions between ranges are found.** Let all gadgets be bounds that meet their
contracts, and let the optimizer not run out of steps under all rules. It reports a contradiction if
and only if the ranges of some quantity have no number in common. Otherwise it leaves bounds for
each quantity once at most, and what it leaves holds under exactly the assignments that give each
quantity a number between the largest of its lower ends and the smallest of its upper ends. -/
theorem optimize_ranges (cap : Nat) (gadgets : List Gadget)
    (hbounds : ∀ g ∈ gadgets, ∃ b, g = .bounds b) (hcheck : ∀ g ∈ gadgets, g.check = .ok ())
    (hcap : optimize .standard cap gadgets ≠ .error (notConverged cap)) :
    ((∃ error, optimize .standard cap gadgets = .error error ∧ error.kind = .contradiction) ↔
      ∃ v, commonRange gadgets v = ∅) ∧
    ((∀ v, commonRange gadgets v ≠ ∅) → ∃ out, optimize .standard cap gadgets = .ok out ∧
      ((out.filterMap Gadget.bounds?).map fun b => b.value.identity).Nodup ∧
      ∀ hashing σ, Satisfies hashing σ out ↔
        ∀ v lo hi, (rangeEnds Bounds.min gadgets v).max? = some lo →
          (rangeEnds Bounds.max gadgets v).min? = some hi →
          ∃ n, σ.value v = .integer n ∧ lo ≤ n ∧ n ≤ hi) := by
  have hfound : (∃ error, optimize .standard cap gadgets = .error error ∧
      error.kind = .contradiction) → ∃ v, commonRange gadgets v = ∅ := by
    rintro ⟨error, herror, hkind⟩
    by_contra hnone
    have hcommon : ∀ v, (commonRange gadgets v).Nonempty :=
      fun v => Set.nonempty_iff_ne_empty.2 fun hv => hnone ⟨v, hv⟩
    choose f hf using hcommon
    have hsat : Satisfies ⟨id, fun _ _ => True⟩ (.choosing fun v => .integer (f v)) gadgets :=
      satisfies_choosing hcheck hbounds hf
    exact not_satisfies_of_optimize herror hkind (admissible_of_bounds hcheck hbounds) hsat
  refine ⟨⟨hfound, fun ⟨v, hv⟩ => ?_⟩, fun hall => ?_⟩
  · refine (ok_or_contradiction hcap).resolve_left fun ⟨out, hout⟩ => ?_
    obtain ⟨n, hn⟩ := exists_mem_commonRange hcheck
      fun a b c d hr hr' => le_of_ranges (v := v) hcheck hout hr hr'
    rw [hv] at hn
    exact hn
  · obtain ⟨out, hout⟩ := (ok_or_contradiction hcap).resolve_right fun herror =>
      (hfound herror).elim hall
    refine ⟨out, hout, ?_, fun hashing σ => ?_⟩
    · exact (settled_of_optimize hcheck hout).nodup_values
    · rw [satisfies_optimize hout hcheck, satisfies_iff_ends hcheck hbounds]

/-- Three ranges of one quantity, of which the first ends at `hi` and the others start at `10`, and
a range of another quantity. -/
def threeRanges (hi : Int) : List Gadget :=
  [.bounds ⟨sealedInteger "a", .constant (.integer 0), .constant (.integer hi)⟩,
    .bounds ⟨sealedInteger "a", .constant (.integer 10), .constant (.integer 20)⟩,
    .bounds ⟨sealedInteger "a", .constant (.integer 10), .constant (.integer 30)⟩,
    .bounds ⟨sealedInteger "b", .constant (.integer 0), .constant (.integer 5)⟩]

/-- What is left of three ranges that meet in `10`: one of them is not needed to find this out. -/
def threeRest : List Gadget :=
  [.bounds ⟨sealedInteger "a", .constant (.integer 10), .constant (.integer 30)⟩,
    .bounds ⟨sealedInteger "b", .constant (.integer 0), .constant (.integer 5)⟩,
    .equality ⟨sealedInteger "a", .constant (.integer 10)⟩]

theorem optimize_ranges_threeRanges :
    (optimize .standard 4 (threeRanges 10) = .ok threeRest ∧
      (∀ v, commonRange (threeRanges 10) v ≠ ∅) ∧
      ∀ hashing σ, Satisfies hashing σ threeRest ↔
        ∀ v lo hi, (rangeEnds Bounds.min (threeRanges 10) v).max? = some lo →
          (rangeEnds Bounds.max (threeRanges 10) v).min? = some hi →
          ∃ n, σ.value v = .integer n ∧ lo ≤ n ∧ n ≤ hi) ∧
    ∃ v, commonRange (threeRanges 9) v = ∅ := by
  have hbounds : ∀ hi, ∀ g ∈ threeRanges hi, ∃ b, g = .bounds b := by simp [threeRanges]
  have h10 : optimize .standard 4 (threeRanges 10) = .ok threeRest := by decide +kernel
  obtain ⟨error, h9, hkind⟩ : ∃ error, optimize .standard 4 (threeRanges 9) = .error error ∧
      error.kind = .contradiction := ⟨_, rfl, rfl⟩
  have hall : ∀ v, commonRange (threeRanges 10) v ≠ ∅ := by
    intro v hv
    obtain ⟨error, herror, -⟩ :=
      (optimize_ranges 4 _ (hbounds 10) (by decide +kernel) (by simp [h10])).1.2 ⟨v, hv⟩
    cases h10.symm.trans herror
  obtain ⟨out, hout, -, hholds⟩ :=
    (optimize_ranges 4 _ (hbounds 10) (by decide +kernel) (by simp [h10])).2 hall
  obtain rfl : out = threeRest := Except.ok.inj (hout.symm.trans h10)
  refine ⟨⟨h10, hall, hholds⟩, ?_⟩
  have hcap : optimize .standard 4 (threeRanges 9) ≠ .error (notConverged 4) := by
    rw [h9]
    rintro ⟨⟩
    cases hkind
  exact (optimize_ranges 4 _ (hbounds 9) (by decide +kernel) hcap).1.1 ⟨error, h9, hkind⟩

end Optimizer

end Attestation
