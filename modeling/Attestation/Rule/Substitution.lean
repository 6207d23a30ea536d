import Attestation.Gadget.Check
import Attestation.Rule.Pattern

/-!
# Substitutions

Simpler gadgets that say the same as one gadget, or as two together: a range of one point is an
equality, ranges for one quantity are one range, what always holds is nothing, and a set of one
element is an equality.
-/

namespace Attestation

/-- A range of a single point. -/
def Bounds.point? (g : Bounds) : Option (List Gadget) := do
  let (min, max) ← g.range?
  if min = max then return [.equality ⟨g.value, g.min⟩] else none

/-- Ranges for the same quantity that meet at an end: what they share is taken to be that point. -/
def Bounds.touch? (a b : Bounds) : Option (List Gadget) :=
  if a.value.same b.value then do
    let (aMin, aMax) ← a.range?
    let (bMin, bMax) ← b.range?
    if aMax = bMin then return [.equality ⟨a.value, a.max⟩]
    else if bMax = aMin then return [.equality ⟨a.value, b.max⟩]
    else none
  else none

/-- Ranges for the same quantity that overlap. -/
def Bounds.intersect? (a b : Bounds) : Option (List Gadget) :=
  if a.value.same b.value then do
    let (aMin, aMax) ← a.range?
    let (bMin, bMax) ← b.range?
    if aMax < bMin ∨ bMax < aMin then none
    else
      return [.bounds ⟨a.value, if bMin ≤ aMin then a.min else b.min,
        if aMax ≤ bMax then a.max else b.max⟩]
  else none

/-- An equality of something with itself. -/
def Equality.trivial? (g : Equality) : Option (List Gadget) :=
  if sameOperand g.left g.right then some [] else none

/-- An inequality of different known values. -/
def Inequality.trivial? (g : Inequality) : Option (List Gadget) :=
  if distinctKnown g.left g.right then some [] else none

/-- Membership in a set of one element. -/
def Membership.single? (g : Membership) : Option (List Gadget) :=
  match g.set with
  | [only] => some [.equality ⟨g.member, only⟩]
  | _ => none

/-- The substitutions that are made. -/
inductive Substitution where
  | pointRange
  | sharedBoundary
  | rangeIntersection
  | tautology
  | distinctValues
  | singleElement
  deriving DecidableEq, Repr

namespace Substitution

/-- All substitutions, in the order in which they are looked for. -/
def all : List Substitution :=
  [pointRange, sharedBoundary, rangeIntersection, tautology, distinctValues, singleElement]

def name : Substitution → String
  | pointRange => "point range"
  | sharedBoundary => "shared boundary"
  | rangeIntersection => "range intersection"
  | tautology => "tautology"
  | distinctValues => "distinct instances"
  | singleElement => "single element set"

/-- The gadgets a substitution is about, and what replaces them. -/
def pattern : Substitution → Pattern (Option (List Gadget))
  | pointRange => .one Gadget.bounds? Bounds.point?
  | sharedBoundary => .two Gadget.bounds? Gadget.bounds? Bounds.touch?
  | rangeIntersection => .two Gadget.bounds? Gadget.bounds? Bounds.intersect?
  | tautology => .one Gadget.equality? Equality.trivial?
  | distinctValues => .one Gadget.inequality? Inequality.trivial?
  | singleElement => .one Gadget.membership? Membership.single?

end Substitution

end Attestation
