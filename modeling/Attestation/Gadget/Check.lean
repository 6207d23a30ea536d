import Attestation.Diagnostic.Basic
import Attestation.Gadget.Basic

/-!
# What gadgets demand of their variables

Every kind of gadget has a contract: which of its variables have to be witnesses, which disclosed,
and of what type they are. `Gadget.check` goes through the contract in a fixed order and reports the
first breach.
-/

namespace Attestation

open Syntax (PredicateKind)
open Text

/-! ## Demands on single variables -/

/-- The variable has to be disclosed: a witness would be published. -/
def requireDisclosed (kind : PredicateKind) (field : String) (v : Variable) :
    Except Diagnostic Unit :=
  if v.isWitness then
    .error ((Diagnostic.unlocated .witnessExposure
      s!"{kind.gadgetName} expects instance data for `{field}`, but `{v.describe}` is witness data and would be exposed.").withVariable
        v s!"witness data used as `{field}`")
  else .ok ()

/-- The variable has to be a witness. -/
def requireWitness (kind : PredicateKind) (field : String) (v : Variable) :
    Except Diagnostic Unit :=
  if v.isDisclosed then
    .error ((Diagnostic.unlocated .typeMismatch
      s!"{kind.gadgetName} expects witness data for `{field}`, found instance value `{v.describe}`.").withVariable
        v s!"instance data used as `{field}`")
  else .ok ()

/-- The variable has to have a type. -/
def requireType (kind : PredicateKind) (field : String) (v : Variable) (expected : DataType) :
    Except Diagnostic Unit :=
  if v.type ≠ expected then
    .error ((Diagnostic.unlocated .typeMismatch
      s!"{kind.gadgetName} expects {expected.name} for `{field}`, found {v.type.name} `{v.describe}`.").withVariable
        v s!"expected {expected.name}")
  else .ok ()

/-- Variables that are compared have to have the same type. -/
def requireSameType (kind : PredicateKind) (left right : Variable) : Except Diagnostic Unit :=
  if left.type ≠ right.type then
    .error (((Diagnostic.unlocated .typeMismatch
      s!"{kind.gadgetName} cannot compare {left.type.name} `{left.describe}` with {right.type.name} `{right.describe}`.").withVariable
        left left.type.name).withVariable right right.type.name)
  else .ok ()

/-! ## Bounds -/

namespace Bounds

/-- The number of bits a bound may have. -/
def maxBits : Nat := 256

/-- The number of binary digits of a number, whatever its sign. -/
def bits (n : Int) : Nat :=
  if n = 0 then 0 else n.natAbs.log2 + 1

/-- The smallest bound, which holds if none is given. -/
def least : Int := 0

/-- The largest bound, which holds if none is given. -/
def greatest : Int := (Nat.pow 2 maxBits : Nat) - 1

/-- The two bounds, if both are known. -/
def range? (g : Bounds) : Option (Int × Int) := do
  let min ← g.min.integer?
  let max ← g.max.integer?
  return (min, max)

/-- No value lies between the bounds. -/
def empty? (g : Bounds) : Option Diagnostic :=
  match g.range? with
  | some (min, max) =>
    if max < min then
      some (((Diagnostic.unlocated .contradiction
        s!"Contradiction: lower bound {Decimal.ofInt min} of `{g.value.describe}` exceeds its upper bound {Decimal.ofInt max}.").withVariable
          g.min "lower bound").withVariable g.max "upper bound")
    else none
  | none => none

/-- A bound has to be a known number that is not negative and has at most `maxBits` digits. -/
def checkBound (field : String) (bound : Variable) : Except Diagnostic Unit := do
  requireDisclosed .bounds field bound
  requireType .bounds field bound .integer
  match bound.integer? with
  | none => .error (.internal s!"{field} bound `{bound.describe}` has no integer value")
  | some value =>
    if value < least then
      .error ((Diagnostic.unlocated .invalidValue
        s!"Bound `{field}` is a negative number: {Decimal.ofInt value}.").withVariable
          bound "bounds must not be negative")
    else if maxBits < bits value then
      .error ((Diagnostic.unlocated .invalidValue
        s!"Bound `{field}` is a number too large: {Decimal.ofInt value} exceeds {Decimal.ofNat maxBits} bits.").withVariable
          bound "bounds must fit in 256 bits")
    else .ok ()

def check (g : Bounds) : Except Diagnostic Unit := do
  requireWitness .bounds "value" g.value
  requireType .bounds "value" g.value .integer
  checkBound "min" g.min
  checkBound "max" g.max
  match g.empty? with
  | some contradiction => .error contradiction
  | none => .ok ()

end Bounds

/-! ## The other kinds -/

def Equality.check (g : Equality) : Except Diagnostic Unit :=
  requireSameType .equality g.left g.right

def Inequality.check (g : Inequality) : Except Diagnostic Unit :=
  requireSameType .inequality g.left g.right

namespace Membership

/-- The name of the element at a position. -/
def elementName (position : Nat) : String :=
  "set_" ++ Decimal.ofNat position

/-- Checks the elements that follow those in `before`. -/
def checkElements (member : Variable) (before : List Variable) :
    List Variable → Except Diagnostic Unit
  | [] => .ok ()
  | element :: rest => do
    requireDisclosed .membership (elementName before.length) element
    requireSameType .membership member element
    match before.find? (·.same element) with
    | some first =>
      .error (((Diagnostic.unlocated .duplicateElement
        s!"Set contains duplicate element {element.describe}.").withVariable
          element "duplicate element").withVariable first "first occurrence")
    | none => checkElements member (before ++ [element]) rest

def check (g : Membership) : Except Diagnostic Unit :=
  checkElements g.member [] g.set

end Membership

def MimcHash.check (g : MimcHash) : Except Diagnostic Unit := do
  requireWitness .mimcHash "preimage" g.preimage
  requireType .mimcHash "preimage" g.preimage .integer
  requireDisclosed .mimcHash "image" g.image
  requireType .mimcHash "image" g.image .bytes

namespace MerkleTree

/-- The name of the leaf at a position, from left to right. -/
def leafName (position : Nat) : String :=
  "leaf_" ++ Decimal.ofNat position

/-- Checks leaves, the first of which is at a position. -/
def checkLeaves (position : Nat) : List Variable → Except Diagnostic Unit
  | [] => .ok ()
  | leaf :: rest => do
    requireType .merkleTree (leafName position) leaf .bytes
    checkLeaves (position + 1) rest

def check (g : MerkleTree) : Except Diagnostic Unit := do
  requireDisclosed .merkleTree "root" g.root
  requireType .merkleTree "root" g.root .bytes
  checkLeaves 0 g.tree.leaves

end MerkleTree

/-- Reports the first breach of the contract of a gadget. -/
def Gadget.check : Gadget → Except Diagnostic Unit
  | .equality g => g.check
  | .inequality g => g.check
  | .bounds g => g.check
  | .membership g => g.check
  | .mimcHash g => g.check
  | .merkleTree g => g.check

end Attestation
