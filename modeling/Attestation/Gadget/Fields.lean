import Attestation.Gadget.Check
import Attestation.Table

/-!
# Building gadgets from named fields

A gadget is built from the resolved arguments of a predicate, which it finds by name and takes in
the shape it needs. A missing name or a wrong shape means that predicate and gadget do not go
together, which is an error of the compiler. Which kind of gadget belongs to which kind of predicate
is a registry's to say.
-/

namespace Attestation

open Syntax (PredicateKind)

/-- A resolved argument of a predicate. -/
inductive FieldValue where
  | single (v : Variable)
  /-- An argument that was left out. -/
  | absent
  | list (items : List Variable)
  | tree (t : Tree Variable)
  deriving DecidableEq, Repr

/-- The resolved arguments of the predicate at a position, by name. -/
structure FieldMap where
  position : Position
  fields : Table FieldValue
  deriving DecidableEq, Repr

namespace FieldMap

/-- The error for fields that do not fit the gadget. -/
def misfit (map : FieldMap) (message : String) : Diagnostic :=
  (Diagnostic.internal message).withLabel map.position
    "while constructing a gadget for this predicate"

/-- Finds a field and takes it in the shape that `view` sees. -/
def get {α : Type} (map : FieldMap) (name shape : String) (view : FieldValue → Option α) :
    Except Diagnostic α :=
  match map.fields.find? name with
  | none => .error (map.misfit s!"field `{name}` missing from predicate fields")
  | some value =>
    match view value with
    | some a => .ok a
    | none => .error (map.misfit s!"field `{name}` is not {shape}")

/-- A field that is a single variable. -/
def single (map : FieldMap) (name : String) : Except Diagnostic Variable :=
  map.get name "a single value" fun
    | .single v => some v
    | _ => none

/-- A field that is a single variable or left out. -/
def optional (map : FieldMap) (name : String) : Except Diagnostic (Option Variable) :=
  map.get name "an optional value" fun
    | .single v => some (some v)
    | .absent => some none
    | _ => none

/-- A field that is a list. -/
def list (map : FieldMap) (name : String) : Except Diagnostic (List Variable) :=
  map.get name "a list" fun
    | .list items => some items
    | _ => none

/-- A field that is a tree. -/
def tree (map : FieldMap) (name : String) : Except Diagnostic (Tree Variable) :=
  map.get name "a tree" fun
    | .tree t => some t
    | _ => none

/-- The map without a field. -/
def without (map : FieldMap) (name : String) : FieldMap :=
  { map with fields := map.fields.erase name }

/-- Takes a field out of the map with one of the readers above; it is gone even if it does not have
the shape. -/
def take {α : Type} (map : FieldMap) (name : String)
    (reader : FieldMap → String → Except Diagnostic α) : Except Diagnostic α × FieldMap :=
  (reader map name, map.without name)

end FieldMap

/-- The fields of a gadget, before they are checked. -/
def Gadget.ofFields (map : FieldMap) : PredicateKind → Except Diagnostic Gadget
  | .equality => do
    let left ← map.single "left"
    let right ← map.single "right"
    return .equality ⟨left, right⟩
  | .inequality => do
    let left ← map.single "left"
    let right ← map.single "right"
    return .inequality ⟨left, right⟩
  | .bounds => do
    let value ← map.single "value"
    let min ← map.optional "min"
    let max ← map.optional "max"
    return .bounds ⟨value, min.getD (.constant (.integer Bounds.least)),
      max.getD (.constant (.integer Bounds.greatest))⟩
  | .membership => do
    let member ← map.single "member"
    let set ← map.list "set"
    if set.isEmpty then
      .error (.located .invalidValue map.position "Set membership requires a non-empty set.")
    else return .membership ⟨member, set⟩
  | .mimcHash => do
    let preimage ← map.single "preimage"
    let image ← map.single "image"
    return .mimcHash ⟨preimage, image⟩
  | .merkleTree => do
    let root ← map.single "root"
    let tree ← map.tree "tree"
    return .merkleTree ⟨root, tree⟩

/-- Builds a gadget of a kind and checks it. -/
def Gadget.construct (kind : PredicateKind) (map : FieldMap) : Except Diagnostic Gadget := do
  let gadget ← Gadget.ofFields map kind
  gadget.check
  return gadget

/-- Which kind of gadget is built for which kind of predicate; the first entry for a kind of
predicate counts. -/
abbrev Registry := List (PredicateKind × PredicateKind)

namespace Registry

/-- Every kind of predicate has gadgets of its own. -/
def standard : Registry :=
  PredicateKind.all.map fun kind => (kind, kind)

/-- The kind of gadget for a kind of predicate. -/
def find? (registry : Registry) (kind : PredicateKind) : Option PredicateKind :=
  List.lookup kind registry

end Registry

end Attestation
