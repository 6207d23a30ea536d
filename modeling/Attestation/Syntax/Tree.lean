/-!
# Binary trees with values at the leaves
-/

namespace Attestation

/-- A binary tree with values at its leaves. -/
inductive Tree (α : Type) where
  | leaf (value : α)
  | branch (left right : Tree α)
  deriving DecidableEq, Repr

namespace Tree

variable {α β γ : Type}

/-- The values from left to right. -/
def leaves : Tree α → List α
  | leaf value => [value]
  | branch left right => left.leaves ++ right.leaves

/-- The tree with a function applied at its leaves. -/
def map (f : α → β) : Tree α → Tree β
  | leaf value => leaf (f value)
  | branch left right => branch (left.map f) (right.map f)

/-- Applies a function with effects, from left to right. -/
def mapM {m : Type → Type} [Monad m] (f : α → m β) : Tree α → m (Tree β)
  | leaf value => do return leaf (← f value)
  | branch left right => do
    let l ← left.mapM f
    let r ← right.mapM f
    return branch l r

theorem leaves_map (f : α → β) (t : Tree α) : (t.map f).leaves = t.leaves.map f := by
  induction t with
  | leaf value => rfl
  | branch left right ihl ihr => simp [map, leaves, ihl, ihr]

theorem map_map (f : α → β) (h : β → γ) (t : Tree α) : (t.map f).map h = t.map (h ∘ f) := by
  induction t with
  | leaf value => rfl
  | branch left right ihl ihr => simp only [map, ihl, ihr]

theorem map_congr {f f' : α → β} {t : Tree α} (h : ∀ a ∈ t.leaves, f a = f' a) :
    t.map f = t.map f' := by
  induction t with
  | leaf value => simp [map, h value (by simp [leaves])]
  | branch left right ihl ihr =>
    obtain ⟨hl, hr⟩ := List.forall_mem_append.1 h
    simp only [map, ihl hl, ihr hr]

theorem map_injective {f : α → β} (hf : Function.Injective f) :
    Function.Injective (map f) := by
  intro s t h
  induction s generalizing t with
  | leaf a =>
    cases t with
    | leaf b => exact congrArg leaf (hf (leaf.inj h))
    | branch l r => cases h
  | branch left right ihl ihr =>
    cases t with
    | leaf b => cases h
    | branch l r =>
      obtain ⟨hl, hr⟩ := branch.inj h
      rw [ihl hl, ihr hr]

end Tree

end Attestation
