import Attestation.Gadget.Check
import Attestation.Rule.Pattern

/-!
# Contradictions

Seven ways in which one gadget, or two together, can never hold. Each rule gives the error to report
if it finds its contradiction. Disclosed values are compared by value; a witness contradicts itself
only where its value plays no part.
-/

namespace Attestation

open Text

/-- Two ranges for the same quantity do not meet. -/
def Bounds.disjoint? (a b : Bounds) : Option Diagnostic :=
  if a.value.same b.value then
    match a.range?, b.range? with
    | some (aMin, aMax), some (bMin, bMax) =>
      if aMax < bMin then some (apart a.value a.max b.min)
      else if bMax < aMin then some (apart a.value b.max a.min)
      else none
    | _, _ => none
  else none
where
  apart (value upper lower : Variable) : Diagnostic :=
    ((Diagnostic.unlocated .contradiction
      s!"Contradiction: `{value.describe}` cannot be at most {upper.describe} and at least {lower.describe} at the same time.").withVariable
        upper "upper bound").withVariable lower "lower bound"

/-- Different known values are never equal. -/
def Equality.unequal? (g : Equality) : Option Diagnostic :=
  if distinctKnown g.left g.right then
    some (((Diagnostic.unlocated .contradiction
      s!"Contradiction: `{g.left.describe}` can never equal `{g.right.describe}`.").withVariable
        g.left "left side").withVariable g.right "right side")
  else none

/-- Nothing differs from itself. -/
def Inequality.reflexive? (g : Inequality) : Option Diagnostic :=
  if sameOperand g.left g.right then
    some (((Diagnostic.unlocated .contradiction
      s!"Contradiction: `{g.left.describe}` cannot be unequal to itself.").withVariable
        g.left "left side").withVariable g.right "right side")
  else none

/-- The same two quantities are said to be equal and to differ. -/
def Equality.denied? (e : Equality) (i : Inequality) : Option Diagnostic :=
  if samePair e.left e.right i.left i.right then
    some (((Diagnostic.unlocated .contradiction
      s!"Contradiction: `{e.left.describe}` and `{e.right.describe}` are required to be both equal and unequal.").withVariable
        e.left "asserted equal here").withVariable i.left "asserted unequal here")
  else none

/-- A known value is none of the elements. -/
def Membership.excluded? (g : Membership) : Option Diagnostic :=
  if g.member.isDisclosed && !g.member.literal.isSealed && !g.hasElement g.member then
    some ((Diagnostic.unlocated .contradiction
      s!"Contradiction: {g.member.describe} is not an element of the set.").withVariable
        g.member "member")
  else none

/-- One preimage has two different known images. -/
def MimcHash.ambiguous? (a b : MimcHash) : Option Diagnostic :=
  if a.preimage.same b.preimage && distinctKnown a.image b.image then
    some (((Diagnostic.unlocated .contradiction
      s!"Contradiction: `{a.preimage.describe}` cannot hash to both {a.image.describe} and {b.image.describe}.").withVariable
        a.image "first image").withVariable b.image "second image")
  else none

/-- The contradictions that are looked for. -/
inductive Contradiction where
  | emptyRange
  | disjointRanges
  | unequalValues
  | selfInequality
  | equalAndUnequal
  | nonMember
  | conflictingImages
  deriving DecidableEq, Repr

namespace Contradiction

/-- All contradictions, in the order in which they are looked for. -/
def all : List Contradiction :=
  [emptyRange, disjointRanges, unequalValues, selfInequality, equalAndUnequal, nonMember,
    conflictingImages]

def name : Contradiction → String
  | emptyRange => "empty bounds range"
  | disjointRanges => "disjoint bounds ranges"
  | unequalValues => "unequal instances"
  | selfInequality => "self inequality"
  | equalAndUnequal => "equal and unequal"
  | nonMember => "public non-member"
  | conflictingImages => "conflicting hash images"

/-- The gadgets a contradiction is about, and the error if they contradict. -/
def pattern : Contradiction → Pattern (Option Diagnostic)
  | emptyRange => .one Gadget.bounds? Bounds.empty?
  | disjointRanges => .two Gadget.bounds? Gadget.bounds? Bounds.disjoint?
  | unequalValues => .one Gadget.equality? Equality.unequal?
  | selfInequality => .one Gadget.inequality? Inequality.reflexive?
  | equalAndUnequal => .two Gadget.equality? Gadget.inequality? Equality.denied?
  | nonMember => .one Gadget.membership? Membership.excluded?
  | conflictingImages => .two Gadget.mimcHash? Gadget.mimcHash? MimcHash.ambiguous?

end Contradiction

end Attestation
