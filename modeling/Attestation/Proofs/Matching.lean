import Attestation.Rule.Contradiction
import Attestation.Rule.Implication
import Attestation.Rule.Substitution
import Mathlib.Data.List.Perm.Basic

/-!
# What it takes for a rule to apply

A rule is looked for in a list of gadgets in three ways: for the first thing it has to say, for all
it has to say, and for the first thing together with the gadgets that are left. Whichever way it is,
the rule was applied to gadgets of the list (`Pattern.first?_eq_some`, `Pattern.mem_allPairs`,
`Pattern.extract?_eq_some`). `Pattern.says_one` and `Pattern.says_two` then tell what these gadgets
are. If nothing is found, the rule has nothing to say about any gadgets in the order of the list
(`Pattern.first?_eq_none_iff`, `Pattern.extract?_eq_none_iff`). Of several pairs the one is taken
whose first item comes first (`extractPair?_eq_erase`).
-/

namespace Attestation

variable {α β ω : Type}

/-! ## Taking items out of a list -/

theorem extract?_eq_some {f : α → Option β} {l others : List α} {b : β}
    (h : extract? f l = some (b, others)) : ∃ a, f a = some b ∧ l.Perm (a :: others) := by
  induction l generalizing others with
  | nil => simp [extract?] at h
  | cons a rest ih =>
    rw [extract?] at h
    cases hf : f a with
    | some b' =>
      simp only [hf, Option.some.injEq, Prod.mk.injEq] at h
      obtain ⟨rfl, rfl⟩ := h
      exact ⟨a, hf, .refl _⟩
    | none =>
      simp only [hf, Option.map_eq_some_iff, Prod.mk.injEq, Prod.exists] at h
      obtain ⟨b', others', h', rfl, rfl⟩ := h
      obtain ⟨a', ha', hperm⟩ := ih h'
      exact ⟨a', ha', (hperm.cons a).trans (.swap a' a others')⟩

theorem extractPair?_eq_some {f : α → α → Option β} {l others : List α} {b : β}
    (h : extractPair? f l = some (b, others)) :
    ∃ a a', f a a' = some b ∧ l.Perm (a :: a' :: others) := by
  induction l generalizing others with
  | nil => simp [extractPair?] at h
  | cons a rest ih =>
    rw [extractPair?] at h
    cases he : extract? (f a) rest with
    | some found =>
      rw [he, Option.some.injEq] at h
      subst h
      obtain ⟨a', ha', hperm⟩ := extract?_eq_some he
      exact ⟨a, a', ha', hperm.cons a⟩
    | none =>
      simp only [he, Option.map_eq_some_iff, Prod.mk.injEq, Prod.exists] at h
      obtain ⟨b', others', h', rfl, rfl⟩ := h
      obtain ⟨c, c', hc, hperm⟩ := ih h'
      refine ⟨c, c', hc, (hperm.cons a).trans ?_⟩
      exact (List.Perm.swap c a _).trans ((List.Perm.swap c' a _).cons c)

theorem extract?_eq_none_iff {f : α → Option β} {l : List α} :
    extract? f l = none ↔ ∀ a ∈ l, f a = none := by
  induction l with
  | nil => simp [extract?]
  | cons a rest ih =>
    rw [extract?, List.forall_mem_cons]
    cases hf : f a with
    | some b => simp
    | none => simp [ih]

theorem extractPair?_eq_none_iff {f : α → α → Option β} {l : List α} :
    extractPair? f l = none ↔ l.Pairwise fun a b => f a b = none := by
  induction l with
  | nil => simp [extractPair?]
  | cons a rest ih =>
    rw [extractPair?, List.pairwise_cons, ← extract?_eq_none_iff]
    cases he : extract? (f a) rest with
    | some found => simp
    | none => simp [ih]

theorem mem_pairs_iff {a b : α} {l : List α} : (a, b) ∈ pairs l ↔ [a, b].Sublist l := by
  induction l with
  | nil => simp [pairs]
  | cons c rest ih =>
    simp only [pairs, List.mem_append, List.mem_map, Prod.mk.injEq, ih]
    constructor
    · rintro (⟨d, hd, rfl, rfl⟩ | h)
      · exact (List.singleton_sublist.2 hd).cons_cons _
      · exact h.cons _
    · intro h
      cases h with
      | cons _ h => exact .inr h
      | cons_cons _ h => exact .inl ⟨b, List.singleton_sublist.1 h, rfl, rfl⟩

section

variable [DecidableEq α]

/-- The item that is taken is gone from where it stood first. -/
theorem extract?_eq_erase {f : α → Option β} {l others : List α} {b : β}
    (h : extract? f l = some (b, others)) : ∃ a ∈ l, f a = some b ∧ others = l.erase a := by
  induction l generalizing others with
  | nil => cases h
  | cons a rest ih =>
    rw [extract?] at h
    cases hf : f a with
    | some b' =>
      simp only [hf, Option.some.injEq, Prod.mk.injEq] at h
      obtain ⟨rfl, rfl⟩ := h
      exact ⟨a, List.mem_cons_self, hf, (List.erase_cons_head a rest).symm⟩
    | none =>
      simp only [hf, Option.map_eq_some_iff, Prod.mk.injEq, Prod.exists] at h
      obtain ⟨b', others', h', rfl, rfl⟩ := h
      obtain ⟨c, hc, hfc, rfl⟩ := ih h'
      have hne : a ≠ c := by
        rintro rfl
        rw [hf] at hfc
        cases hfc
      exact ⟨c, List.mem_cons_of_mem _ hc, hfc,
        (List.erase_cons_tail (by simpa using hne)).symm⟩

/-- In a list without repetition the pair that is taken is the one whose first item comes first:
any other item with a partner behind it comes later. -/
theorem extractPair?_eq_erase {f : α → α → Option β} {l others : List α} {b : β} (hl : l.Nodup)
    (h : extractPair? f l = some (b, others)) :
    ∃ a c, [a, c].Sublist l ∧ f a c = some b ∧ others = (l.erase a).erase c ∧
      ∀ x y, [x, y].Sublist l → f x y ≠ none → x = a ∨ [a, x].Sublist l := by
  induction l generalizing others with
  | nil => cases h
  | cons a rest ih =>
    rw [extractPair?] at h
    obtain ⟨ha, hrest⟩ := List.nodup_cons.1 hl
    cases he : extract? (f a) rest with
    | some found =>
      rw [he, Option.some.injEq] at h
      subst h
      obtain ⟨c, hc, hfc, rfl⟩ := extract?_eq_erase he
      refine ⟨a, c, (List.singleton_sublist.2 hc).cons_cons a, hfc, by simp, fun x y hxy _ => ?_⟩
      rcases List.mem_cons.1 (hxy.subset List.mem_cons_self) with rfl | hx
      · exact .inl rfl
      · exact .inr ((List.singleton_sublist.2 hx).cons_cons a)
    | none =>
      simp only [he, Option.map_eq_some_iff, Prod.mk.injEq, Prod.exists] at h
      obtain ⟨b', others', h', rfl, rfl⟩ := h
      obtain ⟨c, d, hcd, hfcd, rfl, hfirst⟩ := ih hrest h'
      have hac : a ≠ c := fun hac => ha (hac ▸ hcd.subset List.mem_cons_self)
      have had : a ≠ d := fun had => ha (had ▸ hcd.subset (by simp))
      refine ⟨c, d, hcd.cons a, hfcd, ?_, fun x y hxy hf => ?_⟩
      · rw [List.erase_cons_tail (by simpa using hac), List.erase_cons_tail (by simpa using had)]
      · cases hxy with
        | cons _ hxy => exact (hfirst x y hxy hf).imp_right fun h => h.cons a
        | cons_cons _ hy =>
          exact absurd (extract?_eq_none_iff.1 he y (List.singleton_sublist.1 hy)) hf

end

/-! ## Applications of a pattern -/

namespace Pattern

/-- What a rule says about the gadgets it is applied to. -/
def Says (pattern : Pattern (Option α)) (matched : List Gadget) (a : α) : Prop :=
  match pattern, matched with
  | .unary apply, [g] => (apply g).join = some a
  | .binary apply, [x, y] => (apply x y).join = some a
  | _, _ => False

theorem first?_eq_some {pattern : Pattern (Option α)} {gadgets : List Gadget} {a : α}
    (h : pattern.first? gadgets = some a) :
    ∃ matched, pattern.Says matched a ∧ matched ⊆ gadgets := by
  cases pattern with
  | unary apply =>
    obtain ⟨g, hg, h⟩ := List.exists_of_findSome?_eq_some h
    exact ⟨[g], h, by simpa using hg⟩
  | binary apply =>
    obtain ⟨⟨x, y⟩, hxy, h⟩ := List.exists_of_findSome?_eq_some h
    exact ⟨[x, y], h, by simpa using mem_pairs_of_mem hxy⟩

theorem mem_allPairs {pattern : Pattern (Option α)} {gadgets : List Gadget} {a : α}
    (h : a ∈ pattern.allPairs gadgets) :
    ∃ matched, pattern.Says matched a ∧ matched ⊆ gadgets := by
  cases pattern with
  | unary apply => simp [allPairs] at h
  | binary apply =>
    obtain ⟨⟨x, y⟩, hxy, h⟩ := List.mem_filterMap.1 h
    exact ⟨[x, y], h, by simpa using mem_pairs_of_mem hxy⟩

theorem extract?_eq_some {pattern : Pattern (Option α)} {gadgets others : List Gadget} {a : α}
    (h : pattern.extract? gadgets = some (a, others)) :
    ∃ matched, pattern.Says matched a ∧ gadgets.Perm (matched ++ others) := by
  cases pattern with
  | unary apply =>
    obtain ⟨g, hg, hperm⟩ := Attestation.extract?_eq_some h
    exact ⟨[g], hg, hperm⟩
  | binary apply =>
    obtain ⟨x, y, hxy, hperm⟩ := extractPair?_eq_some h
    exact ⟨[x, y], hxy, hperm⟩

theorem says_unary {apply : Gadget → Option (Option α)} {matched : List Gadget} {a : α}
    (h : (unary apply).Says matched a) : ∃ g, matched = [g] ∧ (apply g).join = some a := by
  rcases matched with _ | ⟨g, _ | ⟨g', rest⟩⟩
  · exact h.elim
  · exact ⟨g, rfl, h⟩
  · exact h.elim

theorem says_binary {apply : Gadget → Gadget → Option (Option α)} {matched : List Gadget} {a : α}
    (h : (binary apply).Says matched a) :
    ∃ x y, matched = [x, y] ∧ (apply x y).join = some a := by
  rcases matched with _ | ⟨x, _ | ⟨y, _ | ⟨z, rest⟩⟩⟩
  · exact h.elim
  · exact h.elim
  · exact ⟨x, y, rfl, h⟩
  · exact h.elim

theorem says_one {view? : Gadget → Option β} {rule : β → Option α} {matched : List Gadget} {a : α}
    (h : (one view? rule).Says matched a) :
    ∃ g b, matched = [g] ∧ view? g = some b ∧ rule b = some a := by
  obtain ⟨g, rfl, h⟩ := says_unary h
  obtain ⟨b, hb, h⟩ := Option.map_eq_some_iff.1 (Option.join_eq_some_iff.1 h)
  exact ⟨g, b, rfl, hb, h⟩

theorem says_two {left? : Gadget → Option β} {right? : Gadget → Option ω} {rule : β → ω → Option α}
    {matched : List Gadget} {a : α} (h : (two left? right? rule).Says matched a) :
    ∃ x y b c, matched.Perm [x, y] ∧ left? x = some b ∧ right? y = some c ∧ rule b c = some a := by
  obtain ⟨x, y, rfl, hxy⟩ := says_binary h
  rw [Option.join_eq_some_iff] at hxy
  split at hxy
  case h_1 b c hb hc => exact ⟨x, y, b, c, .refl _, hb, hc, by simpa using hxy⟩
  case h_2 =>
    split at hxy
    case h_1 b c hb hc => exact ⟨y, x, b, c, .swap _ _ _, hb, hc, by simpa using hxy⟩
    case h_2 => cases hxy

theorem says_one_of {view? : Gadget → Option β} {rule : β → Option α} {g : Gadget} {b : β} {a : α}
    (hg : view? g = some b) (h : rule b = some a) : (one view? rule).Says [g] a := by
  simp [one, Says, hg, h]

theorem says_two_of {left? : Gadget → Option β} {right? : Gadget → Option ω}
    {rule : β → ω → Option α} {x y : Gadget} {b : β} {c : ω} {a : α} (hx : left? x = some b)
    (hy : right? y = some c) (h : rule b c = some a) : (two left? right? rule).Says [x, y] a := by
  simp [two, Says, hx, hy, h]

theorem says_two_swap {left? : Gadget → Option β} {right? : Gadget → Option ω}
    {rule : β → ω → Option α} {x y : Gadget} {b : β} {c : ω} {a : α} (hleft : left? x = none)
    (hx : right? x = some c) (hy : left? y = some b) (h : rule b c = some a) :
    (two left? right? rule).Says [x, y] a := by
  simp [two, Says, hleft, hx, hy, h]

/-- Whether a rule says nothing about any gadgets of a list, taken in their order. -/
def Silent (pattern : Pattern (Option α)) (gadgets : List Gadget) : Prop :=
  ∀ matched a, matched.Sublist gadgets → ¬ pattern.Says matched a

theorem silent_unary_iff {apply : Gadget → Option (Option α)} {gadgets : List Gadget} :
    (unary apply).Silent gadgets ↔ ∀ g ∈ gadgets, (apply g).join = none := by
  constructor
  · intro h g hg
    refine Option.eq_none_iff_forall_ne_some.2 fun a ha => ?_
    exact h [g] a (List.singleton_sublist.2 hg) ha
  · intro h matched a hsub hsays
    obtain ⟨g, rfl, hg⟩ := says_unary hsays
    rw [h g (List.singleton_sublist.1 hsub)] at hg
    cases hg

theorem silent_binary_iff {apply : Gadget → Gadget → Option (Option α)} {gadgets : List Gadget} :
    (binary apply).Silent gadgets ↔ gadgets.Pairwise fun x y => (apply x y).join = none := by
  rw [List.pairwise_iff_forall_sublist]
  constructor
  · intro h x y hsub
    exact Option.eq_none_iff_forall_ne_some.2 fun a ha => h [x, y] a hsub ha
  · intro h matched a hsub hsays
    obtain ⟨x, y, rfl, hxy⟩ := says_binary hsays
    rw [h hsub] at hxy
    cases hxy

theorem first?_eq_none_iff {pattern : Pattern (Option α)} {gadgets : List Gadget} :
    pattern.first? gadgets = none ↔ pattern.Silent gadgets := by
  cases pattern with
  | unary apply =>
    rw [silent_unary_iff]
    exact List.findSome?_eq_none_iff
  | binary apply =>
    rw [silent_binary_iff, List.pairwise_iff_forall_sublist]
    refine List.findSome?_eq_none_iff.trans ⟨fun h x y hsub => ?_, fun h pair hpair => ?_⟩
    · exact h (x, y) (mem_pairs_iff.2 hsub)
    · exact h (mem_pairs_iff.1 hpair)

theorem extract?_eq_none_iff {pattern : Pattern (Option α)} {gadgets : List Gadget} :
    pattern.extract? gadgets = none ↔ pattern.Silent gadgets := by
  cases pattern with
  | unary apply =>
    rw [silent_unary_iff]
    exact Attestation.extract?_eq_none_iff
  | binary apply =>
    rw [silent_binary_iff]
    exact extractPair?_eq_none_iff

/-- The gadgets that are left stand in their order. -/
theorem sublist_of_extract? {pattern : Pattern (Option α)} {gadgets others : List Gadget} {a : α}
    (hl : gadgets.Nodup) (h : pattern.extract? gadgets = some (a, others)) :
    others.Sublist gadgets := by
  cases pattern with
  | unary apply =>
    obtain ⟨g, -, -, rfl⟩ := extract?_eq_erase h
    exact List.erase_sublist
  | binary apply =>
    obtain ⟨x, y, -, -, rfl, -⟩ := extractPair?_eq_erase hl h
    exact List.erase_sublist.trans List.erase_sublist

/-- All that a rule has to say about pairs is found. -/
theorem mem_allPairs_of_says {pattern : Pattern (Option α)} {gadgets : List Gadget} {x y : Gadget}
    {a : α} (hsub : [x, y].Sublist gadgets) (h : pattern.Says [x, y] a) :
    a ∈ pattern.allPairs gadgets := by
  cases pattern with
  | unary apply => exact h.elim
  | binary apply => exact List.mem_filterMap.2 ⟨(x, y), mem_pairs_iff.2 hsub, h⟩

end Pattern

/-! ## Gadgets of a kind -/

namespace Gadget

variable {g : Gadget}

theorem equality?_eq_some_iff {e : Equality} : g.equality? = some e ↔ g = .equality e := by
  cases g <;> simp [equality?]

theorem inequality?_eq_some_iff {i : Inequality} : g.inequality? = some i ↔ g = .inequality i := by
  cases g <;> simp [inequality?]

theorem bounds?_eq_some_iff {b : Bounds} : g.bounds? = some b ↔ g = .bounds b := by
  cases g <;> simp [bounds?]

theorem membership?_eq_some_iff {m : Membership} : g.membership? = some m ↔ g = .membership m := by
  cases g <;> simp [membership?]

theorem mimcHash?_eq_some_iff {m : MimcHash} : g.mimcHash? = some m ↔ g = .mimcHash m := by
  cases g <;> simp [mimcHash?]

end Gadget

end Attestation
