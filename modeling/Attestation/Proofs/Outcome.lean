import Attestation.Syntax.Tree
import Mathlib.Data.List.Forall2

/-!
# Computations that may fail

The compiler is written with computations that end in a value or in an error. This module inverts
them: a sequence succeeds when each of its parts does (`bind_eq_ok_iff`, `mapM_eq_ok_iff`,
`Tree.mapM_eq_ok_iff`), and its error is that of a part (`bind_eq_error_iff`, `mapM_eq_error`,
`Tree.mapM_eq_error`). Computations that agree in their parts up to a change of values and errors do
so as a whole (`bind_mapBoth`, `mapM_mapBoth`, `Tree.mapM_mapBoth`), and so do those that agree up
to a relation (`Agree`).
-/

namespace Attestation

variable {ε α β γ : Type}

theorem bind_eq_ok_iff {x : Except ε α} {f : α → Except ε β} {b : β} :
    x >>= f = .ok b ↔ ∃ a, x = .ok a ∧ f a = .ok b := by
  cases x with
  | error e => simp [bind, Except.bind]
  | ok a => simp [bind, Except.bind]

/-- What follows a computation matters only where there is something to follow. -/
theorem bind_congr_ok {x : Except ε α} {f g : α → Except ε β} (h : ∀ a, x = .ok a → f a = g a) :
    x >>= f = x >>= g := by
  cases x with
  | error e => rfl
  | ok a => exact h a rfl

theorem seq_eq_ok_iff {x : Except ε Unit} {y : Except ε β} {b : β} :
    (x >>= fun _ => y) = .ok b ↔ x = .ok () ∧ y = .ok b := by
  rw [bind_eq_ok_iff]
  exact ⟨fun ⟨_, hx, hy⟩ => ⟨hx, hy⟩, fun ⟨hx, hy⟩ => ⟨(), hx, hy⟩⟩

theorem map_eq_ok_iff {x : Except ε α} {f : α → β} {b : β} :
    x.map f = .ok b ↔ ∃ a, x = .ok a ∧ f a = b := by
  cases x with
  | error e => simp [Except.map]
  | ok a => simp [Except.map]

theorem mapError_eq_ok_iff {δ : Type} {x : Except ε α} {f : ε → δ} {a : α} :
    x.mapError f = .ok a ↔ x = .ok a := by
  cases x with
  | error e => simp [Except.mapError]
  | ok a => simp [Except.mapError]

theorem mapM_eq_ok_iff {f : α → Except ε β} {l : List α} {l' : List β} :
    l.mapM f = .ok l' ↔ List.Forall₂ (fun a b => f a = .ok b) l l' := by
  induction l generalizing l' with
  | nil => simp [pure, Except.pure, eq_comm]
  | cons a l ih =>
    rw [List.mapM_cons, bind_eq_ok_iff, List.forall₂_cons_left_iff]
    constructor
    · rintro ⟨b, hb, h⟩
      obtain ⟨bs, hbs, h⟩ := bind_eq_ok_iff.1 h
      cases h
      exact ⟨b, bs, hb, ih.1 hbs, rfl⟩
    · rintro ⟨b, bs, hb, hbs, rfl⟩
      exact ⟨b, hb, bind_eq_ok_iff.2 ⟨bs, ih.2 hbs, rfl⟩⟩

/-- Every item of the first of two related lists is related to one of the second. -/
theorem exists_of_forall₂ {R : α → β → Prop} {l : List α} {l' : List β} (h : List.Forall₂ R l l')
    {a : α} (ha : a ∈ l) : ∃ b ∈ l', R a b := by
  induction h with
  | nil => cases ha
  | @cons x y xs ys hxy _ ih =>
    rcases List.mem_cons.1 ha with rfl | ha
    · exact ⟨y, List.mem_cons_self, hxy⟩
    · obtain ⟨b, hb, hab⟩ := ih ha
      exact ⟨b, List.mem_cons_of_mem _ hb, hab⟩

theorem Tree.mapM_eq_ok_iff {f : α → Except ε β} {t : Tree α} {t' : Tree β} :
    t.mapM f = .ok t' ↔ t.map f = t'.map .ok := by
  induction t generalizing t' with
  | leaf a =>
    rw [Tree.mapM, bind_eq_ok_iff]
    cases t' with
    | leaf b => simp [Tree.map, pure, Except.pure]
    | branch l r => simp [Tree.map, pure, Except.pure]
  | branch left right ihl ihr =>
    rw [Tree.mapM, bind_eq_ok_iff]
    constructor
    · rintro ⟨l, hl, h⟩
      obtain ⟨r, hr, h⟩ := bind_eq_ok_iff.1 h
      cases h
      rw [Tree.map, Tree.map, ihl.1 hl, ihr.1 hr]
    · intro h
      cases t' with
      | leaf b => cases h
      | branch l r =>
        obtain ⟨hl, hr⟩ := Tree.branch.inj h
        exact ⟨l, ihl.2 hl, bind_eq_ok_iff.2 ⟨r, ihr.2 hr, rfl⟩⟩

/-! ## Errors -/

theorem bind_eq_error_iff {x : Except ε α} {f : α → Except ε β} {e : ε} :
    x >>= f = .error e ↔ x = .error e ∨ ∃ a, x = .ok a ∧ f a = .error e := by
  cases x with
  | error e' => simp [bind, Except.bind]
  | ok a => simp [bind, Except.bind]

theorem map_eq_error_iff {x : Except ε α} {f : α → β} {e : ε} :
    x.map f = .error e ↔ x = .error e := by
  cases x with
  | error e' => simp [Except.map]
  | ok a => simp [Except.map]

theorem mapError_eq_error_iff {δ : Type} {x : Except ε α} {f : ε → δ} {d : δ} :
    x.mapError f = .error d ↔ ∃ e, x = .error e ∧ f e = d := by
  cases x with
  | error e => simp [Except.mapError]
  | ok a => simp [Except.mapError]

theorem toOption_eq_some_iff {x : Except ε α} {a : α} : x.toOption = some a ↔ x = .ok a := by
  cases x <;> simp [Except.toOption]

/-- The error of a computation that fails. -/
def failure? : Except ε α → Option ε
  | .error e => some e
  | .ok _ => none

theorem failure?_eq_some_iff {x : Except ε α} {e : ε} : failure? x = some e ↔ x = .error e := by
  cases x <;> simp [failure?]

theorem mapM_eq_error {f : α → Except ε β} {l : List α} {e : ε} (h : l.mapM f = .error e) :
    ∃ a ∈ l, f a = .error e := by
  induction l with
  | nil => cases h
  | cons a rest ih =>
    rw [List.mapM_cons] at h
    rcases bind_eq_error_iff.1 h with ha | ⟨b, -, h⟩
    · exact ⟨a, List.mem_cons_self, ha⟩
    · rcases bind_eq_error_iff.1 h with hrest | ⟨bs, -, h⟩
      · obtain ⟨c, hc, hce⟩ := ih hrest
        exact ⟨c, List.mem_cons_of_mem a hc, hce⟩
      · cases h

theorem foldlM_eq_error {f : β → α → Except ε β} {l : List α} {b : β} {e : ε}
    (h : l.foldlM f b = .error e) : ∃ b', ∃ a ∈ l, f b' a = .error e := by
  induction l generalizing b with
  | nil => cases h
  | cons a rest ih =>
    rw [List.foldlM_cons] at h
    rcases bind_eq_error_iff.1 h with ha | ⟨b', -, h⟩
    · exact ⟨b, a, List.mem_cons_self, ha⟩
    · obtain ⟨b'', c, hc, hce⟩ := ih h
      exact ⟨b'', c, List.mem_cons_of_mem a hc, hce⟩

theorem Tree.mapM_eq_error {f : α → Except ε β} {t : Tree α} {e : ε}
    (h : t.mapM f = .error e) : ∃ a ∈ t.leaves, f a = .error e := by
  induction t with
  | leaf a =>
    rcases bind_eq_error_iff.1 h with ha | ⟨b, -, h⟩
    · exact ⟨a, List.mem_singleton_self a, ha⟩
    · cases h
  | branch left right ihl ihr =>
    rcases bind_eq_error_iff.1 h with hl | ⟨l, -, h⟩
    · obtain ⟨a, ha, hae⟩ := ihl hl
      exact ⟨a, List.mem_append_left _ ha, hae⟩
    · rcases bind_eq_error_iff.1 h with hr | ⟨r, -, h⟩
      · obtain ⟨a, ha, hae⟩ := ihr hr
        exact ⟨a, List.mem_append_right _ ha, hae⟩
      · cases h

/-! ## Computations that agree up to functions -/

/-- The outcome with another value in the place of its value and another error in that of its
error. -/
def mapBoth {δ : Type} (f : ε → δ) (φ : α → β) : Except ε α → Except δ β
  | .error e => .error (f e)
  | .ok a => .ok (φ a)

section

variable {δ ζ : Type} {f : ε → δ} {φ : α → β} {ψ : γ → ζ}

@[simp] theorem mapBoth_error (e : ε) : mapBoth f φ (.error e) = .error (f e) := rfl

@[simp] theorem mapBoth_ok (a : α) : mapBoth f φ (.ok a : Except ε α) = .ok (φ a) := rfl

theorem mapBoth_id (φ : α → β) (x : Except ε α) : mapBoth id φ x = x.map φ := by
  cases x <;> rfl

theorem mapBoth_eq_ok_iff {x : Except ε α} {b : β} :
    mapBoth f φ x = .ok b ↔ ∃ a, x = .ok a ∧ φ a = b := by
  cases x <;> simp

/-- Sequences agree if what follows does, wherever there is something to follow. -/
theorem bind_mapBoth {x : Except ε α} {k : α → Except ε γ} {g : β → Except δ ζ}
    (h : ∀ a, x = .ok a → g (φ a) = mapBoth f ψ (k a)) :
    mapBoth f φ x >>= g = mapBoth f ψ (x >>= k) := by
  cases x with
  | error e => rfl
  | ok a => exact h a rfl

theorem mapBoth_map {x : Except ε α} {χ : α → γ} {ω : β → ζ} (h : ∀ a, ω (φ a) = ψ (χ a)) :
    (mapBoth f φ x).map ω = mapBoth f ψ (x.map χ) := by
  cases x with
  | error e => rfl
  | ok a => exact congrArg Except.ok (h a)

theorem mapM_mapBoth {r : α → Except ε β} {g : α → Except δ ζ} {θ : β → ζ} {l : List α}
    (h : ∀ a ∈ l, g a = mapBoth f θ (r a)) : l.mapM g = mapBoth f (List.map θ) (l.mapM r) := by
  induction l with
  | nil => rfl
  | cons a rest ih =>
    have hrest := ih fun b hb => h b (List.mem_cons_of_mem _ hb)
    rw [List.mapM_cons, List.mapM_cons, h a List.mem_cons_self, hrest]
    exact bind_mapBoth fun b _ => bind_mapBoth fun bs _ => rfl

theorem Tree.mapM_mapBoth {r : α → Except ε β} {g : α → Except δ ζ} {θ : β → ζ} {t : Tree α}
    (h : ∀ a ∈ t.leaves, g a = mapBoth f θ (r a)) :
    t.mapM g = mapBoth f (Tree.map θ) (t.mapM r) := by
  induction t with
  | leaf a =>
    rw [Tree.mapM, Tree.mapM, h a (List.mem_singleton_self a)]
    exact bind_mapBoth fun b _ => rfl
  | branch left right ihl ihr =>
    have hl := ihl fun a ha => h a (List.mem_append_left _ ha)
    have hr := ihr fun a ha => h a (List.mem_append_right _ ha)
    rw [Tree.mapM, Tree.mapM, hl, hr]
    exact bind_mapBoth fun l _ => bind_mapBoth fun r _ => rfl

end

/-! ## Computations that agree up to relations -/

/-- Both computations succeed with related values, or both fail with related errors. -/
inductive Agree {δ : Type} (R : ε → δ → Prop) (S : α → β → Prop) : Except ε α → Except δ β → Prop
  | ok {a : α} {b : β} (h : S a b) : Agree R S (.ok a) (.ok b)
  | error {e : ε} {d : δ} (h : R e d) : Agree R S (.error e) (.error d)

section

variable {δ ζ : Type} {R : ε → δ → Prop} {S : α → β → Prop} {T : γ → ζ → Prop}

theorem Agree.exists_ok {a : α} {y : Except δ β} (h : Agree R S (.ok a) y) :
    ∃ b, y = .ok b ∧ S a b := by
  cases h with
  | ok h => exact ⟨_, rfl, h⟩

theorem Agree.exists_error {e : ε} {y : Except δ β} (h : Agree R S (.error e) y) :
    ∃ d, y = .error d ∧ R e d := by
  cases h with
  | error h => exact ⟨_, rfl, h⟩

theorem Agree.bind {x : Except ε α} {y : Except δ β} {f : α → Except ε γ} {g : β → Except δ ζ}
    (hxy : Agree R S x y) (hfg : ∀ a b, S a b → Agree R T (f a) (g b)) :
    Agree R T (x >>= f) (y >>= g) := by
  cases hxy with
  | ok h => exact hfg _ _ h
  | error h => exact .error h

theorem Agree.map {x : Except ε α} {y : Except δ β} {f : α → γ} {g : β → ζ} (hxy : Agree R S x y)
    (hfg : ∀ a b, S a b → T (f a) (g b)) : Agree R T (x.map f) (y.map g) := by
  cases hxy with
  | ok h => exact .ok (hfg _ _ h)
  | error h => exact .error h

/-- Walks through a list and through its image agree if they do at every item. -/
theorem Agree.mapM {φ : α → β} {f : α → Except ε γ} {g : β → Except δ γ} {l : List α}
    (h : ∀ a ∈ l, Agree R Eq (f a) (g (φ a))) : Agree R Eq (l.mapM f) ((l.map φ).mapM g) := by
  induction l with
  | nil => exact .ok rfl
  | cons a rest ih =>
    rw [List.map_cons, List.mapM_cons, List.mapM_cons]
    refine (h a List.mem_cons_self).bind fun c c' hc => ?_
    refine (ih fun b hb => h b (List.mem_cons_of_mem _ hb)).bind fun cs cs' hcs => ?_
    exact .ok (by rw [hc, hcs])

theorem Agree.tree {φ : α → β} {f : α → Except ε γ} {g : β → Except δ γ} {t : Tree α}
    (h : ∀ a ∈ t.leaves, Agree R Eq (f a) (g (φ a))) :
    Agree R Eq (t.mapM f) ((t.map φ).mapM g) := by
  induction t with
  | leaf a => exact (h a (List.mem_singleton_self a)).bind fun c c' hc => .ok (by rw [hc])
  | branch left right ihl ihr =>
    refine (ihl fun a ha => h a (List.mem_append_left _ ha)).bind fun l l' hl => ?_
    refine (ihr fun a ha => h a (List.mem_append_right _ ha)).bind fun r r' hr => ?_
    exact .ok (by rw [hl, hr])

end

end Attestation
