import Attestation.Gadget.Basic

/-!
# Patterns of gadgets

A rule applies to one gadget or to two. It matches only gadgets of the kinds it is about; a rule
about two kinds matches a pair of them in either order.
-/

namespace Attestation

/-- What a rule has to say about the gadgets it matches. -/
inductive Pattern (ω : Type) where
  | unary (apply : Gadget → Option ω)
  | binary (apply : Gadget → Gadget → Option ω)

namespace Pattern

variable {α β ω : Type}

/-- A rule about one gadget of a kind. -/
def one (view? : Gadget → Option α) (rule : α → ω) : Pattern ω :=
  .unary fun g => (view? g).map rule

/-- A rule about a gadget of one kind and a gadget of another, in either order. -/
def two (left? : Gadget → Option α) (right? : Gadget → Option β) (rule : α → β → ω) : Pattern ω :=
  .binary fun x y =>
    match left? x, right? y with
    | some a, some b => some (rule a b)
    | _, _ =>
      match left? y, right? x with
      | some a, some b => some (rule a b)
      | _, _ => none

end Pattern

/-- The pairs of items of a list, the first of a pair before the second. -/
def pairs {α : Type} : List α → List (α × α)
  | [] => []
  | a :: rest => rest.map (fun b => (a, b)) ++ pairs rest

theorem mem_pairs_of_mem {α : Type} {a b : α} : ∀ {l : List α}, (a, b) ∈ pairs l → a ∈ l ∧ b ∈ l
  | [], h => by simp [pairs] at h
  | c :: rest, h => by
    simp only [pairs, List.mem_append, List.mem_map, Prod.mk.injEq] at h
    rcases h with ⟨d, hd, rfl, rfl⟩ | h
    · exact ⟨List.mem_cons_self, List.mem_cons_of_mem _ hd⟩
    · obtain ⟨ha, hb⟩ := mem_pairs_of_mem h
      exact ⟨List.mem_cons_of_mem _ ha, List.mem_cons_of_mem _ hb⟩

namespace Pattern

variable {α : Type}

/-- The first thing the rule has to say about gadgets of a list: one by one or pair by pair. -/
def first? (pattern : Pattern (Option α)) (gadgets : List Gadget) : Option α :=
  match pattern with
  | .unary apply => gadgets.findSome? fun g => (apply g).join
  | .binary apply => (pairs gadgets).findSome? fun (x, y) => (apply x y).join

/-- All that the rule has to say about pairs of gadgets of a list. -/
def allPairs (pattern : Pattern (Option α)) (gadgets : List Gadget) : List α :=
  match pattern with
  | .unary _ => []
  | .binary apply => (pairs gadgets).filterMap fun (x, y) => (apply x y).join

end Pattern

/-- The first item a function has something to say about: what it says, and the other items. -/
def extract? {α β : Type} (f : α → Option β) : List α → Option (β × List α)
  | [] => none
  | a :: rest =>
    match f a with
    | some b => some (b, rest)
    | none => (extract? f rest).map fun (b, others) => (b, a :: others)

/-- The first pair of items a function has something to say about: what it says, and the other
items. -/
def extractPair? {α β : Type} (f : α → α → Option β) : List α → Option (β × List α)
  | [] => none
  | a :: rest =>
    match extract? (f a) rest with
    | some found => some found
    | none => (extractPair? f rest).map fun (b, others) => (b, a :: others)

/-- The first thing the rule has to say about gadgets of a list, and the gadgets it is not about. -/
def Pattern.extract? {α : Type} (pattern : Pattern (Option α)) (gadgets : List Gadget) :
    Option (α × List Gadget) :=
  match pattern with
  | .unary apply => Attestation.extract? (fun g => (apply g).join) gadgets
  | .binary apply => extractPair? (fun x y => (apply x y).join) gadgets

end Attestation
