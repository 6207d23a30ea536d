import Attestation.Source.Span
import Attestation.Syntax.Selector
import Attestation.Syntax.Tree

/-!
# Statements as written

A statement declares subjects and asserts predicates about their data. Operands are identifiers,
which refer to a subject's data, or constants. `Predicate.fields` gives the arguments of a predicate
by name, in a fixed order, so that they can be resolved without looking at its kind.
-/

namespace Attestation

/-- Whether data is known to the prover alone or to everyone. -/
inductive Visibility where
  /-- Known to the prover alone. -/
  | witness
  /-- Known to everyone: instance data. -/
  | disclosed
  deriving DecidableEq, Repr

/-- The word for a visibility. -/
def Visibility.name : Visibility → String
  | .witness => "witness"
  | .disclosed => "instance"

namespace Syntax

/-- A value written in a statement. -/
inductive Constant where
  | integer (value : Int)
  | string (value : String)
  /-- Bytes in hexadecimal with their mark, as written. -/
  | hex (digits : String)
  | boolean (value : Bool)
  deriving DecidableEq, Repr

/-- An argument of a predicate. -/
inductive Operand where
  /-- A value of a subject. -/
  | identifier (subject : String) (selector : Selector) (span : Span)
  /-- A value written in the statement. -/
  | literal (constant : Constant) (span : Span)
  deriving DecidableEq, Repr

/-- Where an operand is written. -/
def Operand.span : Operand → Span
  | .identifier _ _ span => span
  | .literal _ span => span

/-- A tree of operands. -/
structure OperandTree where
  root : Tree Operand
  span : Span
  deriving DecidableEq, Repr

/-- The kinds of predicates. -/
inductive PredicateKind where
  | equality
  | inequality
  | bounds
  | membership
  | mimcHash
  | merkleTree
  deriving DecidableEq, Repr

/-- All kinds of predicates. -/
def PredicateKind.all : List PredicateKind :=
  [.equality, .inequality, .bounds, .membership, .mimcHash, .merkleTree]

/-- The name of a kind in messages. -/
def PredicateKind.name : PredicateKind → String
  | .equality => "equality"
  | .inequality => "inequality"
  | .bounds => "bounds check"
  | .membership => "set membership"
  | .mimcHash => "mimc hash"
  | .merkleTree => "merkle tree"

/-- An assertion about operands. -/
inductive Predicate where
  | equality (left right : Operand) (span : Span)
  | inequality (left right : Operand) (span : Span)
  /-- The value lies between its bounds, each of which may be left out. -/
  | bounds (value : Operand) (min max : Option Operand) (span : Span)
  | membership (member : Operand) (set : List Operand) (span : Span)
  | mimcHash (preimage image : Operand) (span : Span)
  | merkleTree (root : Operand) (tree : OperandTree) (span : Span)
  deriving DecidableEq, Repr

/-- An argument of a predicate, before it is resolved. -/
inductive Element where
  | single (operand : Operand)
  /-- An argument that was left out. -/
  | absent
  | list (operands : List Operand)
  | tree (tree : OperandTree)
  deriving DecidableEq, Repr

/-- An argument that may be left out. -/
def Element.ofOption : Option Operand → Element
  | some operand => .single operand
  | none => .absent

namespace Predicate

def kind : Predicate → PredicateKind
  | equality .. => .equality
  | inequality .. => .inequality
  | bounds .. => .bounds
  | membership .. => .membership
  | mimcHash .. => .mimcHash
  | merkleTree .. => .merkleTree

def span : Predicate → Span
  | equality _ _ span => span
  | inequality _ _ span => span
  | bounds _ _ _ span => span
  | membership _ _ span => span
  | mimcHash _ _ span => span
  | merkleTree _ _ span => span

/-- The arguments by name, in the order in which they are resolved. -/
def fields : Predicate → List (String × Element)
  | equality left right _ => [("left", .single left), ("right", .single right)]
  | inequality left right _ => [("left", .single left), ("right", .single right)]
  | bounds value min max _ =>
    [("value", .single value), ("min", .ofOption min), ("max", .ofOption max)]
  | membership member set _ => [("member", .single member), ("set", .list set)]
  | mimcHash preimage image _ => [("preimage", .single preimage), ("image", .single image)]
  | merkleTree root tree _ => [("root", .single root), ("tree", .tree tree)]

end Predicate

/-- The operands of an argument, from left to right. -/
def Element.operands : Element → List Operand
  | .single operand => [operand]
  | .absent => []
  | .list operands => operands
  | .tree t => t.root.leaves

/-- The operands of a predicate, in the order in which they are resolved. -/
def Predicate.operands (p : Predicate) : List Operand :=
  p.fields.flatMap fun (_, element) => element.operands

/-- A name and where it is written. -/
structure Ident where
  name : String
  span : Span
  deriving DecidableEq, Repr

/-- The declaration of a subject. -/
structure Declaration where
  /-- The alias of the subject. -/
  subject : Ident
  schema : Ident
  visibility : Visibility
  deriving DecidableEq, Repr

/-- A statement as a front end hands it over. -/
structure Statement where
  /-- The name of its source. -/
  source : String
  /-- Its full text. -/
  text : String
  subjects : List Declaration
  predicates : List Predicate
  deriving DecidableEq, Repr

end Syntax

end Attestation
