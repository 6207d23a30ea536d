import Attestation.Proofs.Resolution
import Mathlib.Algebra.Ring.Int.Defs
import Mathlib.Tactic.NormNum

/-!
# The catalog of gadgets

A gadget is built from fields that have the names of a predicate's arguments and values of their
shapes (`FieldMap.Suits`), as its resolved arguments have (`Scope.suits_of_fields`). The catalog
says for each kind of predicate which of these fields make a gadget (`FieldMap.Acceptable`), in
terms of the fields alone: a bound is a number between `0` and `2 ^ 256 - 1`, the elements of a set
are pairwise different, all leaves of a tree are bytes. The registered constructor accepts exactly
these fields, and the gadget holds their variables and nothing else (`Gadget.construct_accepts`).
-/

namespace Attestation

open Syntax

/-! ## The catalog -/

/-- The value has the shape of the argument. -/
inductive FieldValue.Suits : FieldValue → Element → Prop
  | single (v : Variable) (operand : Operand) : Suits (.single v) (.single operand)
  | absent : Suits .absent .absent
  | list (items : List Variable) (operands : List Operand) : Suits (.list items) (.list operands)
  | tree (t : Tree Variable) (operands : OperandTree) : Suits (.tree t) (.tree operands)

namespace FieldMap

/-- The fields have the names of the arguments of a predicate, each with a value of its shape. -/
def Suits (map : FieldMap) (p : Predicate) : Prop :=
  ∀ name, Option.Rel FieldValue.Suits (map.fields.find? name) (Table.find? name p.fields)

/-- A bound is a number: one that is disclosed and known, or the limit if it was left out. -/
def HasBound (map : FieldMap) (name : String) (limit n : Int) : Prop :=
  map.fields.find? name = some .absent ∧ n = limit ∨
    ∃ v, map.fields.find? name = some (.single v) ∧ v.visibility = .disclosed ∧
      v.literal = .integer n

/-- What the catalog demands of the fields for a kind of predicate. -/
def Acceptable (map : FieldMap) : PredicateKind → Prop
  | .equality | .inequality =>
    ∃ x y, map.fields.find? "left" = some (.single x) ∧
      map.fields.find? "right" = some (.single y) ∧ x.type = y.type
  | .bounds =>
    ∃ v lo hi, map.fields.find? "value" = some (.single v) ∧ v.visibility = .witness ∧
      v.type = .integer ∧ map.HasBound "min" 0 lo ∧ map.HasBound "max" (2 ^ 256 - 1) hi ∧
      0 ≤ lo ∧ lo ≤ hi ∧ hi ≤ 2 ^ 256 - 1
  | .membership =>
    ∃ v set, map.fields.find? "member" = some (.single v) ∧
      map.fields.find? "set" = some (.list set) ∧ set ≠ [] ∧
      (∀ e ∈ set, e.visibility = .disclosed ∧ e.type = v.type) ∧
      set.Pairwise fun a b => a.identity ≠ b.identity
  | .mimcHash =>
    ∃ x y, map.fields.find? "preimage" = some (.single x) ∧
      map.fields.find? "image" = some (.single y) ∧ x.visibility = .witness ∧ x.type = .integer ∧
      y.visibility = .disclosed ∧ y.type = .bytes
  | .merkleTree =>
    ∃ v t, map.fields.find? "root" = some (.single v) ∧ map.fields.find? "tree" = some (.tree t) ∧
      v.visibility = .disclosed ∧ v.type = .bytes ∧ ∀ leaf ∈ t.leaves, leaf.type = .bytes

end FieldMap

/-- The variables of a gadget by the names of the fields they are taken from. -/
def Gadget.fields : Gadget → Table FieldValue
  | equality g => [("left", .single g.left), ("right", .single g.right)]
  | inequality g => [("left", .single g.left), ("right", .single g.right)]
  | bounds g => [("value", .single g.value), ("min", .single g.min), ("max", .single g.max)]
  | membership g => [("member", .single g.member), ("set", .list g.set)]
  | mimcHash g => [("preimage", .single g.preimage), ("image", .single g.image)]
  | merkleTree g => [("root", .single g.root), ("tree", .tree g.tree)]

namespace FieldValue

/-- What a gadget holds for a field: a bound that was left out is the limit on its side. -/
def completed (name : String) : FieldValue → FieldValue
  | absent => single (.constant (.integer (if name = "min" then 0 else 2 ^ 256 - 1)))
  | value => value

/-- The value of a field that may be left out. -/
def ofOption : Option Variable → FieldValue
  | some v => single v
  | none => absent

end FieldValue

theorem Bounds.greatest_eq : greatest = 2 ^ 256 - 1 := by
  norm_num [greatest, maxBits]

/-! ## The gadget that fields supply -/

namespace FieldMap

variable {map : FieldMap} {name : String}

theorem get_of_find? {α : Type} {shape : String} {view : FieldValue → Option α} {value : FieldValue}
    {a : α} (h : map.fields.find? name = some value) (hview : view value = some a) :
    map.get name shape view = .ok a := by
  simp only [get, h, hview]

theorem single_of_find? {v : Variable} (h : map.fields.find? name = some (.single v)) :
    map.single name = .ok v :=
  get_of_find? h rfl

theorem list_of_find? {items : List Variable} (h : map.fields.find? name = some (.list items)) :
    map.list name = .ok items :=
  get_of_find? h rfl

theorem tree_of_find? {t : Tree Variable} (h : map.fields.find? name = some (.tree t)) :
    map.tree name = .ok t :=
  get_of_find? h rfl

theorem optional_of_find? {bound : Option Variable}
    (h : map.fields.find? name = some (.ofOption bound)) : map.optional name = .ok bound :=
  get_of_find? h (by cases bound <;> rfl)

/-- The variables of the gadget stand in the fields, each under its name. -/
inductive Supplies (map : FieldMap) : Gadget → Prop
  | equality {x y : Variable} (left : map.fields.find? "left" = some (.single x))
      (right : map.fields.find? "right" = some (.single y)) : Supplies map (.equality ⟨x, y⟩)
  | inequality {x y : Variable} (left : map.fields.find? "left" = some (.single x))
      (right : map.fields.find? "right" = some (.single y)) : Supplies map (.inequality ⟨x, y⟩)
  | bounds {v : Variable} {lo hi : Option Variable}
      (value : map.fields.find? "value" = some (.single v))
      (min : map.fields.find? "min" = some (.ofOption lo))
      (max : map.fields.find? "max" = some (.ofOption hi)) :
      Supplies map (.bounds ⟨v, lo.getD (.constant (.integer Bounds.least)),
        hi.getD (.constant (.integer Bounds.greatest))⟩)
  | membership {v : Variable} {items : List Variable}
      (member : map.fields.find? "member" = some (.single v))
      (set : map.fields.find? "set" = some (.list items)) : Supplies map (.membership ⟨v, items⟩)
  | mimcHash {x y : Variable} (preimage : map.fields.find? "preimage" = some (.single x))
      (image : map.fields.find? "image" = some (.single y)) : Supplies map (.mimcHash ⟨x, y⟩)
  | merkleTree {v : Variable} {t : Tree Variable}
      (root : map.fields.find? "root" = some (.single v))
      (tree : map.fields.find? "tree" = some (.tree t)) : Supplies map (.merkleTree ⟨v, t⟩)

namespace Suits

variable {p : Predicate}

/-- Fields suit a predicate if they go along its arguments one by one. -/
theorem of_forall₂ (h : List.Forall₂ (fun (entry : String × Element) (field : String × FieldValue)
    => field.1 = entry.1 ∧ field.2.Suits entry.2) p.fields map.fields) : map.Suits p := by
  intro name
  generalize p.fields = arguments, map.fields = fields at h
  induction h with
  | nil => exact .none
  | @cons entry field _ _ hhead _ ih =>
    obtain ⟨hkey, hsuits⟩ := hhead
    rw [Table.find?, Table.find?, hkey]
    split_ifs
    · exact .some hsuits
    · exact ih

theorem exists_find? (h : map.Suits p) (name : String) {element : Element}
    (hfind : Table.find? name p.fields = some element) :
    ∃ value, map.fields.find? name = some value ∧ value.Suits element := by
  have hrel := h name
  rw [hfind] at hrel
  generalize map.fields.find? name = value? at hrel
  cases hrel with
  | some hsuits => exact ⟨_, rfl, hsuits⟩

theorem exists_ofOption (h : map.Suits p) (name : String) {operand : Option Operand}
    (hfind : Table.find? name p.fields = some (.ofOption operand)) :
    ∃ bound, map.fields.find? name = some (.ofOption bound) := by
  obtain ⟨value, hvalue, hsuits⟩ := h.exists_find? name hfind
  cases operand with
  | none =>
    cases hsuits with
    | absent => exact ⟨none, hvalue⟩
  | some operand =>
    cases hsuits with
    | single v _ => exact ⟨some v, hvalue⟩

theorem find?_eq_none (h : map.Suits p) (hname : name ∉ Table.keys p.fields) :
    map.fields.find? name = none := by
  have hrel := h name
  rw [Table.find?_eq_none_iff.2 hname] at hrel
  generalize map.fields.find? name = value? at hrel
  cases hrel with
  | none => rfl

/-- Fields for a predicate supply a gadget of its kind. -/
theorem exists_supplies (h : map.Suits p) : ∃ g, map.Supplies g ∧ g.kind = p.kind := by
  cases p with
  | equality left right span =>
    obtain ⟨_, hx, ⟨x, _⟩⟩ := h.exists_find? "left" rfl
    obtain ⟨_, hy, ⟨y, _⟩⟩ := h.exists_find? "right" rfl
    exact ⟨_, .equality hx hy, rfl⟩
  | inequality left right span =>
    obtain ⟨_, hx, ⟨x, _⟩⟩ := h.exists_find? "left" rfl
    obtain ⟨_, hy, ⟨y, _⟩⟩ := h.exists_find? "right" rfl
    exact ⟨_, .inequality hx hy, rfl⟩
  | bounds value min max span =>
    obtain ⟨_, hv, ⟨v, _⟩⟩ := h.exists_find? "value" rfl
    obtain ⟨lo, hlo⟩ := h.exists_ofOption "min" rfl
    obtain ⟨hi, hhi⟩ := h.exists_ofOption "max" rfl
    exact ⟨_, .bounds hv hlo hhi, rfl⟩
  | membership member set span =>
    obtain ⟨_, hv, ⟨v, _⟩⟩ := h.exists_find? "member" rfl
    obtain ⟨_, hitems, ⟨items, _⟩⟩ := h.exists_find? "set" rfl
    exact ⟨_, .membership hv hitems, rfl⟩
  | mimcHash preimage image span =>
    obtain ⟨_, hx, ⟨x, _⟩⟩ := h.exists_find? "preimage" rfl
    obtain ⟨_, hy, ⟨y, _⟩⟩ := h.exists_find? "image" rfl
    exact ⟨_, .mimcHash hx hy, rfl⟩
  | merkleTree root tree span =>
    obtain ⟨_, hv, ⟨v, _⟩⟩ := h.exists_find? "root" rfl
    obtain ⟨_, ht, ⟨t, _⟩⟩ := h.exists_find? "tree" rfl
    exact ⟨_, .merkleTree hv ht, rfl⟩

end Suits

/-! ## What the constructor makes of them -/

/-- A bound is a number when the gadget's is. -/
theorem hasBound_iff {bound : Option Variable} {limit n : Int}
    (h : map.fields.find? name = some (.ofOption bound)) :
    map.HasBound name limit n ↔
      (bound.getD (.constant (.integer limit))).integer? = some n := by
  rw [HasBound, h, Variable.integer?_eq_some_iff]
  cases bound with
  | none => simp [FieldValue.ofOption, Variable.constant, eq_comm]
  | some v => simp [FieldValue.ofOption]

namespace Supplies

variable {g : Gadget}

/-- Only a set can be refused before the contract is looked at, if there is nothing in it. -/
theorem ofFields_eq_ok_iff (h : map.Supplies g) {made : Gadget} :
    Gadget.ofFields map g.kind = .ok made ↔ made = g ∧ ∀ m ∈ g.membership?, m.set ≠ [] := by
  have hother : g.membership? = none → Gadget.ofFields map g.kind = .ok g →
      (Gadget.ofFields map g.kind = .ok made ↔ made = g ∧ ∀ m ∈ g.membership?, m.set ≠ []) := by
    intro hnone hmade
    simp [hnone, hmade, eq_comm]
  cases h with
  | equality hl hr =>
    refine hother rfl ?_
    rw [Gadget.kind, Gadget.ofFields, single_of_find? hl, single_of_find? hr]
    rfl
  | inequality hl hr =>
    refine hother rfl ?_
    rw [Gadget.kind, Gadget.ofFields, single_of_find? hl, single_of_find? hr]
    rfl
  | bounds hv hlo hhi =>
    refine hother rfl ?_
    rw [Gadget.kind, Gadget.ofFields, single_of_find? hv, optional_of_find? hlo,
      optional_of_find? hhi]
    rfl
  | @membership v items hm hs =>
    rw [Gadget.kind, Gadget.ofFields, single_of_find? hm, list_of_find? hs]
    cases items with
    | nil => simp [Gadget.membership?, bind, Except.bind]
    | cons e rest => simp [Gadget.membership?, bind, Except.bind, pure, Except.pure, eq_comm]
  | mimcHash hx hy =>
    refine hother rfl ?_
    rw [Gadget.kind, Gadget.ofFields, single_of_find? hx, single_of_find? hy]
    rfl
  | merkleTree hv ht =>
    refine hother rfl ?_
    rw [Gadget.kind, Gadget.ofFields, single_of_find? hv, tree_of_find? ht]
    rfl

/-- The catalog asks of the fields what the contract asks of their gadget. -/
theorem acceptable_iff (h : map.Supplies g) :
    map.Acceptable g.kind ↔ g.Valid ∧ ∀ m ∈ g.membership?, m.set ≠ [] := by
  cases h with
  | equality hl hr => simp [Gadget.kind, Acceptable, Gadget.Valid, Gadget.membership?, hl, hr]
  | inequality hl hr => simp [Gadget.kind, Acceptable, Gadget.Valid, Gadget.membership?, hl, hr]
  | @bounds v lo hi hv hlo hhi =>
    simp only [Gadget.kind, Acceptable, hasBound_iff hlo, hasBound_iff hhi, ← Bounds.greatest_eq,
      hv]
    constructor
    · rintro ⟨v', lo', hi', heq, hwitness, hinteger, hmin, hmax, hrange⟩
      cases heq
      exact ⟨⟨hwitness, hinteger, lo', hi', hmin, hmax, hrange⟩, by simp [Gadget.membership?]⟩
    · rintro ⟨⟨hwitness, hinteger, lo', hi', hmin, hmax, hrange⟩, -⟩
      exact ⟨v, lo', hi', rfl, hwitness, hinteger, hmin, hmax, hrange⟩
  | @membership v items hm hs =>
    simp only [Gadget.kind, Acceptable, hm, hs]
    constructor
    · rintro ⟨v', items', hv, hitems, hne, hall, hpairwise⟩
      cases hv
      cases hitems
      refine ⟨⟨fun e he => (hall e he).1, fun e he => (hall e he).2.symm,
        List.pairwise_map.2 hpairwise⟩, ?_⟩
      rintro m ⟨⟩
      exact hne
    · rintro ⟨⟨hdisclosed, htype, hnodup⟩, hne⟩
      exact ⟨v, items, rfl, rfl, hne _ rfl, fun e he => ⟨hdisclosed e he, (htype e he).symm⟩,
        List.pairwise_map.1 hnodup⟩
  | @mimcHash x y hx hy =>
    simp only [Gadget.kind, Acceptable, hx, hy]
    constructor
    · rintro ⟨x', y', heq, heq', hwitness, hinteger, hdisclosed, hbytes⟩
      cases heq
      cases heq'
      exact ⟨⟨hwitness, hinteger, hdisclosed, hbytes⟩, by simp [Gadget.membership?]⟩
    · rintro ⟨⟨hwitness, hinteger, hdisclosed, hbytes⟩, -⟩
      exact ⟨x, y, rfl, rfl, hwitness, hinteger, hdisclosed, hbytes⟩
  | @merkleTree v t hv ht =>
    simp only [Gadget.kind, Acceptable, hv, ht]
    constructor
    · rintro ⟨v', t', heq, heq', hdisclosed, hbytes, hleaves⟩
      cases heq
      cases heq'
      exact ⟨⟨hdisclosed, hbytes, hleaves⟩, by simp [Gadget.membership?]⟩
    · rintro ⟨⟨hdisclosed, hbytes, hleaves⟩, -⟩
      exact ⟨v, t, rfl, rfl, hdisclosed, hbytes, hleaves⟩

theorem construct_eq_ok_iff (h : map.Supplies g) {made : Gadget} :
    Gadget.construct g.kind map = .ok made ↔ made = g ∧ map.Acceptable g.kind := by
  rw [Gadget.construct, bind_eq_ok_iff, h.acceptable_iff]
  constructor
  · rintro ⟨other, hother, hmade⟩
    obtain ⟨rfl, hset⟩ := h.ofFields_eq_ok_iff.1 hother
    obtain ⟨hcheck, hmade⟩ := seq_eq_ok_iff.1 hmade
    cases hmade
    exact ⟨rfl, Gadget.check_eq_ok_iff.1 hcheck, hset⟩
  · rintro ⟨rfl, hvalid, hset⟩
    exact ⟨made, h.ofFields_eq_ok_iff.2 ⟨rfl, hset⟩,
      seq_eq_ok_iff.2 ⟨Gadget.check_eq_ok_iff.2 hvalid, rfl⟩⟩

theorem completed_of_mem_fields (h : map.Supplies g) :
    ∀ entry ∈ g.fields, (map.fields.find? entry.1).map (.completed entry.1) = some entry.2 := by
  cases h with
  | equality hl hr => simp [Gadget.fields, FieldValue.completed, hl, hr]
  | inequality hl hr => simp [Gadget.fields, FieldValue.completed, hl, hr]
  | @bounds v lo hi hv hlo hhi =>
    have hmin : (FieldValue.ofOption lo).completed "min" =
        .single (lo.getD (.constant (.integer Bounds.least))) := by
      cases lo <;> rfl
    have hmax : (FieldValue.ofOption hi).completed "max" =
        .single (hi.getD (.constant (.integer Bounds.greatest))) := by
      cases hi with
      | none => simp [FieldValue.ofOption, FieldValue.completed, Bounds.greatest_eq]
      | some v => rfl
    have hvalue : (FieldValue.single v).completed "value" = .single v := rfl
    simp [Gadget.fields, hv, hlo, hhi, hvalue, hmin, hmax]
  | membership hm hs => simp [Gadget.fields, FieldValue.completed, hm, hs]
  | mimcHash hx hy => simp [Gadget.fields, FieldValue.completed, hx, hy]
  | merkleTree hv ht => simp [Gadget.fields, FieldValue.completed, hv, ht]

theorem find?_fields (h : map.Supplies g) {p : Predicate} (hp : map.Suits p)
    (hkind : g.kind = p.kind) (name : String) :
    g.fields.find? name = (map.fields.find? name).map (.completed name) := by
  cases hvalue : g.fields.find? name with
  | some value => exact (h.completed_of_mem_fields (name, value) (Table.mem_of_find? hvalue)).symm
  | none =>
    have hkeys : g.fields.keys = Table.keys p.fields := by
      cases g <;> cases p <;> cases hkind <;> rfl
    have hname : name ∉ Table.keys p.fields := hkeys ▸ Table.find?_eq_none_iff.1 hvalue
    rw [hp.find?_eq_none hname, Option.map_none]

end Supplies

end FieldMap

namespace Scope

theorem suits_of_element {scope : Scope} {subjects : Table Subject} {element : Element}
    {value : FieldValue} (h : scope.element subjects element = .ok value) :
    value.Suits element := by
  cases element with
  | single operand =>
    obtain ⟨v, -, rfl⟩ := element_single h
    exact .single v operand
  | absent =>
    cases h
    exact .absent
  | list operands =>
    obtain ⟨items, -, rfl⟩ := element_list h
    exact .list items operands
  | tree operands =>
    obtain ⟨t, -, rfl⟩ := element_tree h
    exact .tree t operands

/-- The arguments of a predicate are resolved to fields that suit it. -/
theorem suits_of_fields {scope : Scope} {subjects : Table Subject} {p : Predicate}
    {table : Table FieldValue} (h : scope.fields subjects p.fields = .ok table)
    (position : Position) : (FieldMap.mk position table).Suits p := by
  refine .of_forall₂ ((fields_eq_ok h).imp ?_)
  rintro ⟨name, element⟩ field ⟨value, hvalue, rfl⟩
  exact ⟨rfl, suits_of_element hvalue⟩

end Scope

/-- **Gadgets are built as the catalog says**: on fields with the names and shapes of the arguments
of a predicate, the constructor that is registered for its kind succeeds exactly if the fields are
acceptable, and then the gadget holds the variables of the fields, with the limits for bounds that
were left out, and no others. -/
theorem Gadget.construct_accepts (p : Predicate) (map : FieldMap) (h : map.Suits p) :
    ∃ kind, Registry.standard.find? p.kind = some kind ∧
      ((∃ g, Gadget.construct kind map = .ok g) ↔ map.Acceptable p.kind) ∧
      ∀ g, Gadget.construct kind map = .ok g → g.kind = p.kind ∧
        ∀ name, g.fields.find? name = (map.fields.find? name).map (.completed name) := by
  obtain ⟨made, hmade, hkind⟩ := h.exists_supplies
  refine ⟨p.kind, Scope.find?_standard p.kind, ?_⟩
  rw [← hkind]
  refine ⟨⟨fun ⟨g, hg⟩ => (hmade.construct_eq_ok_iff.1 hg).2,
    fun haccept => ⟨made, hmade.construct_eq_ok_iff.2 ⟨rfl, haccept⟩⟩⟩, fun g hg => ?_⟩
  obtain ⟨rfl, -⟩ := hmade.construct_eq_ok_iff.1 hg
  exact ⟨rfl, hmade.find?_fields h hkind⟩

/-! ### Bounds at the limit -/

/-- A number is at most another. -/
def atMost (n : Int) : Predicate :=
  .bounds (.identifier "alice" ⟨["balance"]⟩ ⟨0, 0, 0⟩) none
    (some (.literal (.integer n) ⟨0, 0, 0⟩)) ⟨0, 0, 0⟩

def atMostFields (n : Int) : FieldMap where
  position := ⟨0, ⟨0, 0, 0⟩⟩
  fields := [("value", .single ⟨.witness, .integer 5, none, none⟩), ("min", .absent),
    ("max", .single (.constant (.integer n)))]

theorem suits_atMost (n : Int) : (atMostFields n).Suits (atMost n) :=
  .of_forall₂ (.cons ⟨rfl, .single _ _⟩ (.cons ⟨rfl, .absent⟩ (.cons ⟨rfl, .single _ _⟩ .nil)))

theorem acceptable_atMost_iff {n : Int} :
    (atMostFields n).Acceptable (atMost n).kind ↔ 0 ≤ n ∧ n ≤ 2 ^ 256 - 1 := by
  simp [atMost, Predicate.kind, FieldMap.Acceptable, FieldMap.HasBound, atMostFields, Table.find?,
    Variable.type, Literal.type, Variable.constant]

/-- The largest number of 256 bits is a bound, the next one is not. -/
theorem Gadget.construct_accepts_atMost :
    ∃ kind, Registry.standard.find? .bounds = some kind ∧
      (∃ g, Gadget.construct kind (atMostFields (2 ^ 256 - 1)) = .ok g) ∧
      ¬ ∃ g, Gadget.construct kind (atMostFields (2 ^ 256)) = .ok g := by
  obtain ⟨kind, hkind, hlast, -⟩ := Gadget.construct_accepts _ _ (suits_atMost (2 ^ 256 - 1))
  obtain ⟨kind', hkind', hnext, -⟩ := Gadget.construct_accepts _ _ (suits_atMost (2 ^ 256))
  obtain rfl : kind = kind' := Option.some.inj (hkind.symm.trans hkind')
  refine ⟨kind, hkind, hlast.2 (acceptable_atMost_iff.2 (by norm_num)), fun hg => ?_⟩
  have hlt := (acceptable_atMost_iff.1 (hnext.1 hg)).2
  norm_num at hlt

end Attestation
