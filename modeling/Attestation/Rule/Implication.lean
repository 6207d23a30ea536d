import Attestation.Rule.Pattern

/-!
# Implications

What two gadgets imply together: bounds carry over to the other side of an equality, and equalities
that share a side make their other sides equal.
-/

namespace Attestation

/-- Bounds on one side of an equality hold of the other side, if that is another witness. -/
def Equality.carry? (e : Equality) (b : Bounds) : Option Gadget := do
  let other ← e.counterpart? b.value
  if other.isWitness && !other.same b.value then return .bounds ⟨other, b.min, b.max⟩ else none

/-- The sides two equalities do not share, the shared one looked for on the left of the first. -/
def Equality.outer? (a b : Equality) : Option (Variable × Variable) :=
  match b.counterpart? a.left with
  | some other => some (a.right, other)
  | none => (b.counterpart? a.right).map fun other => (a.left, other)

/-- Equalities that share a side imply that their other sides are equal. -/
def Equality.chain? (a b : Equality) : Option Gadget := do
  let (x, y) ← a.outer? b
  if x.same y then none else return .equality ⟨x, y⟩

/-- The implications that are drawn. -/
inductive Implication where
  | boundsOverEquality
  | transitivity
  deriving DecidableEq, Repr

namespace Implication

/-- All implications, in the order in which they are drawn. -/
def all : List Implication :=
  [boundsOverEquality, transitivity]

def name : Implication → String
  | boundsOverEquality => "bounds over equality"
  | transitivity => "equality transitivity"

/-- The gadgets an implication is about, and what they imply. -/
def pattern : Implication → Pattern (Option Gadget)
  | boundsOverEquality => .two Gadget.equality? Gadget.bounds? Equality.carry?
  | transitivity => .two Gadget.equality? Gadget.equality? Equality.chain?

end Implication

end Attestation
