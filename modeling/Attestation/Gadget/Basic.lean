import Attestation.Data.Variable

/-!
# Gadgets

A gadget is an assertion about variables that a proof system can check. There is one kind of gadget
for each kind of predicate. Two gadgets are the same if they assert the same thing of the same
quantities: the sides of an equality or inequality may be swapped and the elements of a set may come
in another order.
-/

namespace Attestation

open Syntax (PredicateKind)

/-- Two quantities are equal. -/
structure Equality where
  left : Variable
  right : Variable
  deriving DecidableEq, Repr

/-- Two quantities differ. -/
structure Inequality where
  left : Variable
  right : Variable
  deriving DecidableEq, Repr

/-- A quantity lies between two others, both included. -/
structure Bounds where
  value : Variable
  min : Variable
  max : Variable
  deriving DecidableEq, Repr

/-- A quantity is one of several. -/
structure Membership where
  member : Variable
  /-- The elements, in the order in which they were written. -/
  set : List Variable
  deriving DecidableEq, Repr

/-- One quantity is the hash of another. -/
structure MimcHash where
  preimage : Variable
  image : Variable
  deriving DecidableEq, Repr

/-- A quantity is the root of a hash tree over others. -/
structure MerkleTree where
  root : Variable
  tree : Tree Variable
  deriving DecidableEq, Repr

/-- An assertion about variables. -/
inductive Gadget where
  | equality (gadget : Equality)
  | inequality (gadget : Inequality)
  | bounds (gadget : Bounds)
  | membership (gadget : Membership)
  | mimcHash (gadget : MimcHash)
  | merkleTree (gadget : MerkleTree)
  deriving DecidableEq, Repr

/-- The name of the gadgets for a kind of predicate. -/
def Syntax.PredicateKind.gadgetName : PredicateKind → String
  | .equality => "EqualityGadget"
  | .inequality => "InequalityGadget"
  | .bounds => "BoundsCheckGadget"
  | .membership => "SetMembershipGadget"
  | .mimcHash => "MimcHashGadget"
  | .merkleTree => "MerkleTreeGadget"

/-! ## Comparing variables -/

namespace Variable

/-- The two variables stand for the same quantity. -/
def same (a b : Variable) : Bool :=
  a.identity = b.identity

theorem same_iff (a b : Variable) : a.same b = true ↔ a.identity = b.identity := by
  simp [same]

theorem same_refl (a : Variable) : a.same a = true := by
  simp [same]

theorem same_comm (a b : Variable) : a.same b = b.same a := by
  simp [same, eq_comm]

end Variable

/-- The pairs agree, in one order or the other. -/
def samePair (a b c d : Variable) : Bool :=
  (a.same c && b.same d) || (a.same d && b.same c)

/-- Both variables are disclosed, their values are known and differ. -/
def distinctKnown (a b : Variable) : Bool :=
  a.isDisclosed && b.isDisclosed && !a.literal.isSealed && !b.literal.isSealed &&
    a.literal ≠ b.literal

/-- Both variables are the same for a reason that does not depend on what a witness happens to be:
values of witnesses that are known may agree by accident. -/
def sameOperand (a b : Variable) : Bool :=
  a.same b && (a.isDisclosed || a.literal.isSealed)

/-! ## Comparing gadgets -/

/-- The other side, if a variable is one side of the equality. -/
def Equality.counterpart? (g : Equality) (v : Variable) : Option Variable :=
  if g.left.same v then some g.right
  else if g.right.same v then some g.left
  else none

/-- Whether a variable is among the elements. -/
def Membership.hasElement (g : Membership) (v : Variable) : Bool :=
  g.set.any (·.same v)

def Equality.same (a b : Equality) : Bool :=
  samePair a.left a.right b.left b.right

def Inequality.same (a b : Inequality) : Bool :=
  samePair a.left a.right b.left b.right

def Bounds.same (a b : Bounds) : Bool :=
  a.value.same b.value && a.min.same b.min && a.max.same b.max

def Membership.same (a b : Membership) : Bool :=
  a.member.same b.member && a.set.length == b.set.length && a.set.all b.hasElement

def MimcHash.same (a b : MimcHash) : Bool :=
  a.preimage.same b.preimage && a.image.same b.image

def MerkleTree.same (a b : MerkleTree) : Bool :=
  a.root.same b.root && a.tree.map Variable.identity == b.tree.map Variable.identity

namespace Gadget

def kind : Gadget → PredicateKind
  | equality _ => .equality
  | inequality _ => .inequality
  | bounds _ => .bounds
  | membership _ => .membership
  | mimcHash _ => .mimcHash
  | merkleTree _ => .merkleTree

/-- The gadgets assert the same thing. -/
def same : Gadget → Gadget → Bool
  | equality a, equality b => a.same b
  | inequality a, inequality b => a.same b
  | bounds a, bounds b => a.same b
  | membership a, membership b => a.same b
  | mimcHash a, mimcHash b => a.same b
  | merkleTree a, merkleTree b => a.same b
  | _, _ => false

/-- The gadget as one of a kind. -/
def equality? : Gadget → Option Equality
  | equality g => some g
  | _ => none

@[inherit_doc equality?]
def inequality? : Gadget → Option Inequality
  | inequality g => some g
  | _ => none

@[inherit_doc equality?]
def bounds? : Gadget → Option Bounds
  | bounds g => some g
  | _ => none

@[inherit_doc equality?]
def membership? : Gadget → Option Membership
  | membership g => some g
  | _ => none

@[inherit_doc equality?]
def mimcHash? : Gadget → Option MimcHash
  | mimcHash g => some g
  | _ => none

/-- The variables of a gadget, in the order in which it names them. -/
def vars : Gadget → List Variable
  | equality g => [g.left, g.right]
  | inequality g => [g.left, g.right]
  | bounds g => [g.value, g.min, g.max]
  | membership g => g.member :: g.set
  | mimcHash g => [g.preimage, g.image]
  | merkleTree g => g.root :: g.tree.leaves

end Gadget

end Attestation
