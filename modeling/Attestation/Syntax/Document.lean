import Attestation.Json.Decoder
import Attestation.Syntax.Statement

/-!
# Statements as documents

How statements and their parts are written as JSON documents and read off them. Integers are
decimal texts, so that large ones survive. A predicate is an object whose field `predicate` names
its kind, or an array that starts with that name; operands, constants and tree nodes are objects
with one field, which names the alternative.
-/

namespace Attestation

open Json Text

/-! ## Spans and selectors -/

def Span.toJson (span : Span) : Json :=
  .object [("end", .ofNat span.stop.toNat), ("start", .ofNat span.start.toNat),
    ("start_line", .ofNat span.line.toNat)]

/-- A number of 32 bits. -/
def decodeOffset : Decoder UInt32 := fun document =>
  (decodeBelow UInt32.size document).map UInt32.ofNat

/-- A number of 16 bits. -/
def decodeLine : Decoder UInt16 := fun document =>
  (decodeBelow UInt16.size document).map UInt16.ofNat

def Span.ofJson : Decoder Span := fun document => do
  let record ← Record.ofJson ["start", "end", "start_line"] document
  record.finish (Span.mk <$> record.field "start" decodeOffset <*> record.field "end" decodeOffset
    <*> record.field "start_line" decodeLine)

def Selector.toJson (selector : Selector) : Json :=
  .array (selector.segments.map .string)

def Selector.ofJson : Decoder Selector := fun document =>
  (decodeList decodeString document).map Selector.mk

def Visibility.toJson (visibility : Visibility) : Json :=
  .string visibility.name

/-- The visibility a word names. -/
def Visibility.ofName? : String → Option Visibility
  | "witness" => some .witness
  | "instance" => some .disclosed
  | _ => none

def Visibility.ofJson : Decoder Visibility :=
  decodeWord Visibility.ofName?

namespace Syntax

/-! ## Operands -/

def Constant.toJson : Constant → Json
  | .integer value => .object [("integer", .string (Decimal.ofInt value))]
  | .string value => .object [("string", .string value)]
  | .hex digits => .object [("hex", .string digits)]
  | .boolean value => .object [("boolean", .boolean value)]

/-- An integer, written as a decimal text. -/
def decodeInteger : Decoder Int := fun document => do
  let text ← decodeString document
  match Decimal.readInteger? text with
  | some value => .ok value
  | none => .error (.badInteger text)

def Constant.ofJson : Decoder Constant := fun document => do
  match ← decodeVariant document with
  | ("integer", some content) => (decodeInteger content).map .integer
  | ("string", some content) => (decodeString content).map .string
  | ("hex", some content) => (decodeString content).map .hex
  | ("boolean", some content) => (decodeBoolean content).map .boolean
  | _ => .error .shape

def Operand.toJson : Operand → Json
  | .identifier subject selector span =>
    .object [("identifier", .object [("selector", selector.toJson), ("span", span.toJson),
      ("subject", .string subject)])]
  | .literal constant span =>
    .object [("literal", .object [("kind", constant.toJson), ("span", span.toJson)])]

/-- Reads a reference to a value of a subject. -/
def decodeIdentifier : Decoder Operand := fun document => do
  let record ← Record.ofJson ["subject", "selector", "span"] document
  record.finish (Operand.identifier <$> record.field "subject" decodeString
    <*> record.field "selector" Selector.ofJson <*> record.field "span" Span.ofJson)

/-- Reads a value written in a statement. -/
def decodeLiteral : Decoder Operand := fun document => do
  let record ← Record.ofJson ["kind", "span"] document
  record.finish (Operand.literal <$> record.field "kind" Constant.ofJson
    <*> record.field "span" Span.ofJson)

def Operand.ofJson : Decoder Operand := fun document => do
  match ← decodeVariant document with
  | ("identifier", some content) => decodeIdentifier content
  | ("literal", some content) => decodeLiteral content
  | _ => .error .shape

/-! ## Trees -/

/-- A tree of operands, node by node. -/
def treeToJson : Tree Operand → Json
  | .leaf operand => .object [("leaf", operand.toJson)]
  | .branch left right =>
    .object [("branch", .object [("left", treeToJson left), ("right", treeToJson right)])]

/-- Reads the two subtrees of a branch, given what reading each part of it has led to. -/
def decodeBranch (record : Record (Except Fault (Tree Operand))) : Except Fault (Tree Operand) :=
  record.finish (Tree.branch <$> record.field "left" id <*> record.field "right" id)

mutual

/-- Reads a tree of operands. -/
def treeOfJson : Json → Except Fault (Tree Operand)
  | .object [(name, content)] =>
    if name = "leaf" then (Operand.ofJson content).map .leaf
    else if name = "branch" then branchOfJson content
    else .error .shape
  | _ => .error .shape

/-- Reads the content of a branch. -/
def branchOfJson : Json → Except Fault (Tree Operand)
  | .object fields => decodeBranch ⟨treesOfFields fields, false⟩
  | .array items =>
    decodeBranch ⟨["left", "right"].zip (treesOfItems items), decide (2 < items.length)⟩
  | _ => .error .shape

/-- What reading each field as a tree leads to. -/
def treesOfFields : List (String × Json) → List (String × Except Fault (Tree Operand))
  | [] => []
  | (name, content) :: rest => (name, treeOfJson content) :: treesOfFields rest

/-- What reading each item as a tree leads to. -/
def treesOfItems : List Json → List (Except Fault (Tree Operand))
  | [] => []
  | item :: rest => treeOfJson item :: treesOfItems rest

end

def OperandTree.toJson (tree : OperandTree) : Json :=
  .object [("root", treeToJson tree.root), ("span", tree.span.toJson)]

def OperandTree.ofJson : Decoder OperandTree := fun document => do
  let record ← Record.ofJson ["root", "span"] document
  record.finish (OperandTree.mk <$> record.field "root" treeOfJson
    <*> record.field "span" Span.ofJson)

/-! ## Predicates -/

/-- The name of a kind in documents. -/
def PredicateKind.tag : PredicateKind → String
  | .equality => "equality"
  | .inequality => "inequality"
  | .bounds => "bounds_check"
  | .membership => "set_membership"
  | .mimcHash => "mimc_hash"
  | .merkleTree => "merkle_tree"

/-- The kind with a given name in documents. -/
def PredicateKind.ofTag? (tag : String) : Option PredicateKind :=
  PredicateKind.all.find? fun kind => kind.tag = tag

/-- An operand that may be left out. -/
def optionToJson : Option Operand → Json
  | some operand => operand.toJson
  | none => .null

def Predicate.toJson : Predicate → Json
  | .equality left right span =>
    .object [("left", left.toJson), ("predicate", .string "equality"), ("right", right.toJson),
      ("span", span.toJson)]
  | .inequality left right span =>
    .object [("left", left.toJson), ("predicate", .string "inequality"), ("right", right.toJson),
      ("span", span.toJson)]
  | .bounds value min max span =>
    .object [("max", optionToJson max), ("min", optionToJson min),
      ("predicate", .string "bounds_check"), ("span", span.toJson), ("value", value.toJson)]
  | .membership member set span =>
    .object [("member", member.toJson), ("predicate", .string "set_membership"),
      ("set", .array (set.map Operand.toJson)), ("span", span.toJson)]
  | .mimcHash preimage image span =>
    .object [("image", image.toJson), ("predicate", .string "mimc_hash"),
      ("preimage", preimage.toJson), ("span", span.toJson)]
  | .merkleTree root tree span =>
    .object [("predicate", .string "merkle_tree"), ("root", root.toJson), ("span", span.toJson),
      ("tree", tree.toJson)]

/-- The kind a predicate names and the document that holds its arguments. -/
def decodeTag : Decoder (PredicateKind × Json)
  | .object fields => do
    match Table.find? "predicate" fields with
    | some (.string tag) =>
      match PredicateKind.ofTag? tag with
      | some kind => .ok (kind, .object fields)
      | none => .error .shape
    | _ => .error .shape
  | .array (.string tag :: rest) =>
    match PredicateKind.ofTag? tag with
    | some kind => .ok (kind, .array rest)
    | none => .error .shape
  | _ => .error .shape

/-- The names of the fields of a kind, in the order of their declaration. -/
def PredicateKind.fieldNames : PredicateKind → List String
  | .equality => ["left", "right", "span"]
  | .inequality => ["left", "right", "span"]
  | .bounds => ["value", "min", "max", "span"]
  | .membership => ["member", "set", "span"]
  | .mimcHash => ["preimage", "image", "span"]
  | .merkleTree => ["root", "tree", "span"]

/-- Reads the arguments of a predicate of a given kind. -/
def decodeArguments (kind : PredicateKind) (record : Record Json) : Attempt Predicate :=
  let operand (name : String) := record.field name Operand.ofJson
  let optional (name : String) :=
    record.fieldOr (.done none) name (decodeOption Operand.ofJson)
  let span := record.field "span" Span.ofJson
  match kind with
  | .equality => Predicate.equality <$> operand "left" <*> operand "right" <*> span
  | .inequality => Predicate.inequality <$> operand "left" <*> operand "right" <*> span
  | .bounds => Predicate.bounds <$> operand "value" <*> optional "min" <*> optional "max" <*> span
  | .membership =>
    Predicate.membership <$> operand "member" <*> record.field "set" (decodeList Operand.ofJson)
      <*> span
  | .mimcHash => Predicate.mimcHash <$> operand "preimage" <*> operand "image" <*> span
  | .merkleTree =>
    Predicate.merkleTree <$> operand "root" <*> record.field "tree" OperandTree.ofJson <*> span

def Predicate.ofJson : Decoder Predicate := fun document => do
  let (kind, content) ← decodeTag document
  let record ← Record.ofJson kind.fieldNames content
  record.finish (decodeArguments kind record)

/-! ## Statements -/

def Ident.toJson (ident : Ident) : Json :=
  .object [("name", .string ident.name), ("span", ident.span.toJson)]

def Ident.ofJson : Decoder Ident := fun document => do
  let record ← Record.ofJson ["name", "span"] document
  record.finish (Ident.mk <$> record.field "name" decodeString <*> record.field "span" Span.ofJson)

def Declaration.toJson (declaration : Declaration) : Json :=
  .object [("alias", declaration.subject.toJson), ("schema", declaration.schema.toJson),
    ("visibility", declaration.visibility.toJson)]

def Declaration.ofJson : Decoder Declaration := fun document => do
  let record ← Record.ofJson ["alias", "schema", "visibility"] document
  record.finish (Declaration.mk <$> record.field "alias" Ident.ofJson
    <*> record.field "schema" Ident.ofJson <*> record.field "visibility" Visibility.ofJson)

def Statement.toJson (statement : Statement) : Json :=
  .object [("predicates", .array (statement.predicates.map Predicate.toJson)),
    ("source", .string statement.source), ("statement", .string statement.text),
    ("subjects", .array (statement.subjects.map Declaration.toJson))]

def Statement.ofJson : Decoder Statement := fun document => do
  let record ← Record.ofJson ["source", "statement", "subjects", "predicates"] document
  record.finish (Statement.mk <$> record.field "source" decodeString
    <*> record.field "statement" decodeString
    <*> record.fieldOr (.done []) "subjects" (decodeList Declaration.ofJson)
    <*> record.fieldOr (.done []) "predicates" (decodeList Predicate.ofJson))

end Syntax

end Attestation
