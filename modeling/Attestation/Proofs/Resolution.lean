import Attestation.Proofs.Reading
import Attestation.Proofs.Visits

/-!
# What the compiler resolves

`Scope.declareAll` builds a table of subjects, `Scope.operand` turns operands into variables and
`Scope.gadget` predicates into gadgets. This module compares each with the reading of statements:

* the subjects are those of the declarations, each with the data of its alias
  (`Scope.declareAll_eq_ok`, `Scope.find?_of_declares`);
* the variable of an operand is the quantity that the operand is (`Scope.quantity?_of_operand`);
* the gadget of a predicate is of its kind and holds the variables of its operands, each in its
  place (`Scope.Builds`, `Scope.gadget_eq_ok`).
-/

namespace Attestation

open Syntax

namespace Scope

variable {scope : Scope}

/-! ## Aliases -/

theorem referencedAlias_eq (name : String) :
    scope.referencedAlias name = standsFor scope.parent name := by
  unfold referencedAlias standsFor
  cases scope.parent <;> rfl

theorem declaredAlias_eq_ok {ident : Ident} {name : String}
    (h : scope.declaredAlias ident = .ok name) : standsFor scope.parent ident.name = name := by
  unfold declaredAlias at h
  unfold standsFor
  split_ifs at h with hres
  · cases hp : scope.parent with
    | some parent => simpa [hp, hres] using h
    | none => simp [hp] at h
  · cases hp : scope.parent with
    | some parent => simpa [hres] using h
    | none => simpa using h

/-! ## Subjects -/

/-- The entry of the table of subjects that a declaration leads to. -/
structure Declares (scope : Scope) (d : Declaration) (entry : String × Subject) : Prop where
  declaredAlias : scope.declaredAlias d.subject = .ok entry.1
  exists_schema : ∃ schema, scope.context.schema? d.schema.name = some schema ∧
    scope.subject entry.1 schema d.visibility (d.subject.span.pin scope.source) = .ok entry.2

theorem declare_eq_ok {subjects subjects' : Table Subject} {d : Declaration}
    (h : scope.declare subjects d = .ok subjects') :
    ∃ entry, scope.Declares d entry ∧ subjects.find? entry.1 = none ∧
      subjects' = subjects ++ [entry] := by
  unfold declare at h
  obtain ⟨name, hname, h⟩ := bind_eq_ok_iff.1 h
  dsimp only at h
  split at h
  · cases h
  · rename_i hnone
    split at h
    · cases h
    · rename_i schema hschema
      obtain ⟨subject, hsubject, h⟩ := bind_eq_ok_iff.1 h
      cases h
      exact ⟨(name, subject), ⟨hname, schema, hschema, hsubject⟩, hnone, rfl⟩

theorem foldlM_declare_eq_ok {ds : List Declaration} {subjects subjects' : Table Subject}
    (h : ds.foldlM scope.declare subjects = .ok subjects') :
    ∃ entries, subjects' = subjects ++ entries ∧ List.Forall₂ scope.Declares ds entries := by
  induction ds generalizing subjects with
  | nil =>
    cases h
    exact ⟨[], by simp, .nil⟩
  | cons d ds ih =>
    rw [List.foldlM_cons] at h
    obtain ⟨next, hnext, h⟩ := bind_eq_ok_iff.1 h
    obtain ⟨entry, hentry, -, rfl⟩ := declare_eq_ok hnext
    obtain ⟨entries, rfl, hentries⟩ := ih h
    exact ⟨entry :: entries, by simp, .cons hentry hentries⟩

theorem declareAll_eq_ok {ds : List Declaration} {subjects : Table Subject}
    (h : scope.declareAll ds = .ok subjects) : List.Forall₂ scope.Declares ds subjects := by
  obtain ⟨entries, rfl, hentries⟩ := foldlM_declare_eq_ok h
  exact hentries

theorem nodup_keys_of_declare {ds : List Declaration} {subjects subjects' : Table Subject}
    (h : ds.foldlM scope.declare subjects = .ok subjects') (hkeys : subjects.keys.Nodup) :
    subjects'.keys.Nodup := by
  induction ds generalizing subjects with
  | nil =>
    cases h
    exact hkeys
  | cons d ds ih =>
    rw [List.foldlM_cons] at h
    obtain ⟨next, hnext, h⟩ := bind_eq_ok_iff.1 h
    obtain ⟨entry, -, hnone, rfl⟩ := declare_eq_ok hnext
    refine ih h ?_
    have hnotMem : entry.1 ∉ subjects.keys := Table.find?_eq_none_iff.1 hnone
    have hkeys' : Table.keys (subjects ++ [entry]) = subjects.keys ++ [entry.1] := by
      simp [Table.keys]
    rw [hkeys']
    refine List.nodup_append.2 ⟨hkeys, List.pairwise_singleton _ _, fun key hkey other hother => ?_⟩
    rintro rfl
    exact hnotMem (List.mem_singleton.1 hother ▸ hkey)

theorem nodup_keys_of_declareAll {ds : List Declaration} {subjects : Table Subject}
    (h : scope.declareAll ds = .ok subjects) : subjects.keys.Nodup :=
  nodup_keys_of_declare h List.nodup_nil

/-- A subject is found under the alias of the first declaration that is for this alias. -/
theorem find?_of_declares {ds : List Declaration} {subjects : Table Subject}
    (h : List.Forall₂ scope.Declares ds subjects) {name : String} {subject : Subject}
    (hfind : subjects.find? name = some subject) :
    ∃ d, ds.find? (fun d => standsFor scope.parent d.subject.name = name) = some d ∧
      scope.Declares d (name, subject) := by
  induction h with
  | nil => cases hfind
  | @cons d entry ds entries hd _ ih =>
    obtain ⟨key, first⟩ := entry
    have hkey := declaredAlias_eq_ok hd.declaredAlias
    by_cases hn : key = name
    · subst hn
      simp only [Table.find?, if_true, Option.some.injEq] at hfind
      subst hfind
      exact ⟨d, by simp [hkey], hd⟩
    · simp only [Table.find?, hn, if_false] at hfind
      obtain ⟨d', hd', hdec⟩ := ih hfind
      refine ⟨d', ?_, hdec⟩
      rw [List.find?_cons_of_neg (by simpa [hkey] using hn)]
      exact hd'

/-- The data that the values of a subject are read from. -/
def supply? (scope : Scope) (name : String) (schema : Schema) : Visibility → Option Accessor
  | .witness => some ((scope.context.witness.find? name).getD (.synthetic name schema))
  | .disclosed => scope.context.disclosed.find? name

/-- The parts of the subject of a declaration. -/
structure Binds (scope : Scope) (name : String) (schema : Schema) (visibility : Visibility)
    (subject : Subject) : Prop where
  name_eq : subject.name = name
  schema_eq : subject.schema = schema
  visibility_eq : subject.visibility = visibility
  accessor_eq : scope.supply? name schema visibility = some subject.accessor

theorem subject_eq_ok {name : String} {schema : Schema} {visibility : Visibility}
    {position : Position} {subject : Subject}
    (h : scope.subject name schema visibility position = .ok subject) :
    scope.Binds name schema visibility subject := by
  unfold Scope.subject at h
  cases visibility with
  | witness =>
    dsimp only at h
    split_ifs at h
    cases h
    exact ⟨rfl, rfl, rfl, rfl⟩
  | disclosed =>
    unfold Subject.disclosed at h
    dsimp only at h
    split at h
    case h_1 accessor haccessor =>
      cases h
      exact ⟨rfl, rfl, rfl, haccessor⟩
    case h_2 => cases h

end Scope

/-! ## Variables -/

/-- Sealed data holds every declared field, known only by where it is. -/
theorem Accessor.get_synthetic {name : String} {schema : Schema} {selector : Selector}
    {type : DataType} (h : schema.fieldType selector = .ok type) :
    (Accessor.synthetic name schema).get selector type = .ok (.sealed ⟨type, name, selector⟩) := by
  simp [Accessor.get, h, bind, Except.bind]

/-- The data of a subject holds what the context holds in its declared fields. -/
theorem Scope.held?_eq {scope : Scope} {name : String} {schema : Schema} {visibility : Visibility}
    {accessor : Accessor} (h : scope.supply? name schema visibility = some accessor)
    {selector : Selector} {type : DataType} (ht : schema.fieldType selector = .ok type) :
    scope.context.held? visibility ⟨type, name, selector⟩ =
      (accessor.get selector type).toOption := by
  cases visibility with
  | witness =>
    cases h
    cases hw : scope.context.witness.find? name with
    | none =>
      simp only [DataContext.held?, hw, Option.getD_none, Accessor.get_synthetic ht]
      rfl
    | some data => simp only [DataContext.held?, hw, Option.getD_some]
  | disclosed =>
    have hd : scope.context.disclosed.find? name = some accessor := h
    simp only [DataContext.held?, hd, Option.bind_some]

theorem Subject.lookup_eq_ok_iff {subject : Subject} {selector : Selector} {type : DataType}
    {literal : Literal} :
    subject.lookup selector = .ok (type, literal) ↔ subject.schema.fieldType selector = .ok type ∧
      subject.accessor.get selector type = .ok literal := by
  unfold Subject.lookup
  rw [bind_eq_ok_iff]
  constructor
  · rintro ⟨t, ht, h⟩
    obtain ⟨l, hl, h⟩ := bind_eq_ok_iff.1 h
    cases h
    exact ⟨ht, hl⟩
  · rintro ⟨ht, hl⟩
    exact ⟨type, ht, bind_eq_ok_iff.2 ⟨literal, hl, rfl⟩⟩

theorem Subject.resolve_eq_ok {subject : Subject} {selector : Selector} {position : Position}
    {v : Variable} (h : subject.resolve selector position = .ok v) :
    ∃ type literal, subject.lookup selector = .ok (type, literal) ∧
      v = ⟨subject.visibility, literal, some position, some ⟨type, subject.name, selector⟩⟩ := by
  unfold Subject.resolve at h
  split_ifs at h
  split at h
  · cases h
  · rename_i type literal hl
    cases h
    exact ⟨type, literal, hl, rfl⟩

namespace Scope

variable {scope : Scope}

/-- **The variable of an operand is the quantity that the operand is.** -/
theorem quantity?_of_operand {ds : List Declaration} {subjects : Table Subject}
    (hds : List.Forall₂ scope.Declares ds subjects) {operand : Operand} {v : Variable}
    (h : scope.operand subjects operand = .ok v) :
    scope.context.quantity? scope.parent ds operand = some v.identity := by
  cases operand with
  | identifier name selector span =>
    unfold Scope.operand at h
    dsimp only at h
    split at h
    · cases h
    · rename_i subject hfind
      rw [referencedAlias_eq] at hfind
      obtain ⟨d, hd, ⟨-, schema, hschema, hsubject⟩⟩ := find?_of_declares hds hfind
      obtain ⟨type, literal, hlookup, rfl⟩ := Subject.resolve_eq_ok h
      obtain ⟨-, rfl, hvisibility, haccessor⟩ := subject_eq_ok hsubject
      dsimp only at hvisibility
      obtain ⟨htype, hget⟩ := Subject.lookup_eq_ok_iff.1 hlookup
      have hheld := held?_eq haccessor htype
      rw [hget] at hheld
      simp only [DataContext.quantity?, DataContext.field?, hd, Option.bind_some, hschema, htype,
        Except.toOption, Option.map_some, hheld, Variable.identity, hvisibility]
  | literal constant span =>
    unfold Scope.operand at h
    dsimp only at h
    split at h
    · cases h
    · rename_i literal hl
      cases h
      simp [DataContext.quantity?, hl, Except.toOption, Variable.identity]

/-! ## Gadgets -/

/-- The variable of a bound: that of its operand, or a limit if it was left out. -/
inductive BuildsBound (read : Operand → Except Diagnostic Variable) (limit : Int) :
    Option Operand → Variable → Prop
  | given {operand : Operand} {v : Variable} (h : read operand = .ok v) :
    BuildsBound read limit (some operand) v
  | absent : BuildsBound read limit none (.constant (.integer limit))

/-- The gadget is of the kind of the predicate and holds the variables of its operands, each in its
place. -/
inductive Builds (read : Operand → Except Diagnostic Variable) : Predicate → Gadget → Prop
  | equality {left right : Operand} {span : Span} {x y : Variable} (hl : read left = .ok x)
      (hr : read right = .ok y) : Builds read (.equality left right span) (.equality ⟨x, y⟩)
  | inequality {left right : Operand} {span : Span} {x y : Variable} (hl : read left = .ok x)
      (hr : read right = .ok y) : Builds read (.inequality left right span) (.inequality ⟨x, y⟩)
  | bounds {value : Operand} {min max : Option Operand} {span : Span} {v lo hi : Variable}
      (hv : read value = .ok v) (hlo : BuildsBound read Bounds.least min lo)
      (hhi : BuildsBound read Bounds.greatest max hi) :
      Builds read (.bounds value min max span) (.bounds ⟨v, lo, hi⟩)
  | membership {member : Operand} {set : List Operand} {span : Span} {v : Variable}
      {vs : List Variable} (hm : read member = .ok v)
      (hs : List.Forall₂ (fun o v => read o = .ok v) set vs) :
      Builds read (.membership member set span) (.membership ⟨v, vs⟩)
  | mimcHash {preimage image : Operand} {span : Span} {x y : Variable}
      (hp : read preimage = .ok x) (hi : read image = .ok y) :
      Builds read (.mimcHash preimage image span) (.mimcHash ⟨x, y⟩)
  | merkleTree {root : Operand} {tree : OperandTree} {span : Span} {v : Variable}
      {t : Tree Variable} (hr : read root = .ok v) (ht : tree.root.map read = t.map .ok) :
      Builds read (.merkleTree root tree span) (.merkleTree ⟨v, t⟩)

theorem BuildsBound.exists_read {read : Operand → Except Diagnostic Variable} {limit : Int}
    {operand? : Option Operand} {v : Variable} (h : BuildsBound read limit operand? v) :
    ∀ o ∈ operand?.toList, ∃ v, read o = .ok v := by
  cases h with
  | given h => exact List.forall_mem_singleton.2 ⟨v, h⟩
  | absent => simp

/-- All operands of a predicate that a gadget is built from are resolved. -/
theorem Builds.exists_read {read : Operand → Except Diagnostic Variable} {p : Predicate}
    {g : Gadget} (h : Builds read p g) : ∀ o ∈ p.arguments, ∃ v, read o = .ok v := by
  cases h with
  | equality hl hr =>
    exact List.forall_mem_cons.2 ⟨⟨_, hl⟩, List.forall_mem_singleton.2 ⟨_, hr⟩⟩
  | inequality hl hr =>
    exact List.forall_mem_cons.2 ⟨⟨_, hl⟩, List.forall_mem_singleton.2 ⟨_, hr⟩⟩
  | bounds hv hlo hhi =>
    exact List.forall_mem_cons.2
      ⟨⟨_, hv⟩, List.forall_mem_append.2 ⟨hlo.exists_read, hhi.exists_read⟩⟩
  | membership hm hs =>
    refine List.forall_mem_cons.2 ⟨⟨_, hm⟩, fun o ho => ?_⟩
    obtain ⟨v, -, hv⟩ := exists_of_forall₂ hs ho
    exact ⟨v, hv⟩
  | mimcHash hp hi =>
    exact List.forall_mem_cons.2 ⟨⟨_, hp⟩, List.forall_mem_singleton.2 ⟨_, hi⟩⟩
  | @merkleTree root tree span v t hr ht =>
    refine List.forall_mem_cons.2 ⟨⟨_, hr⟩, fun o ho => ?_⟩
    have hleaves : tree.root.leaves.map read = t.leaves.map .ok := by
      rw [← Tree.leaves_map, ht, Tree.leaves_map]
    obtain ⟨v, -, hv⟩ := List.mem_map.1 (hleaves ▸ List.mem_map_of_mem ho)
    exact ⟨v, hv.symm⟩

theorem BuildsBound.read_or_constant {read : Operand → Except Diagnostic Variable} {limit : Int}
    {operand? : Option Operand} {v : Variable} (h : BuildsBound read limit operand? v) :
    (∃ o ∈ operand?.toList, read o = .ok v) ∨ ∃ limit, v = .constant (.integer limit) := by
  cases h with
  | given h => exact .inl ⟨_, List.mem_singleton_self _, h⟩
  | absent => exact .inr ⟨limit, rfl⟩

/-- The variables of a gadget are those of operands, but for limits that were left out. -/
theorem Builds.read_or_constant {read : Operand → Except Diagnostic Variable} {p : Predicate}
    {g : Gadget} (h : Builds read p g) :
    ∀ v ∈ g.vars,
      (∃ o ∈ p.arguments, read o = .ok v) ∨ ∃ limit, v = .constant (.integer limit) := by
  cases h with
  | equality hl hr =>
    refine List.forall_mem_cons.2 ⟨.inl ⟨_, List.mem_cons_self, hl⟩, ?_⟩
    exact List.forall_mem_singleton.2 (.inl ⟨_, by simp [Predicate.arguments], hr⟩)
  | inequality hl hr =>
    refine List.forall_mem_cons.2 ⟨.inl ⟨_, List.mem_cons_self, hl⟩, ?_⟩
    exact List.forall_mem_singleton.2 (.inl ⟨_, by simp [Predicate.arguments], hr⟩)
  | bounds hv hlo hhi =>
    refine List.forall_mem_cons.2 ⟨.inl ⟨_, List.mem_cons_self, hv⟩, List.forall_mem_cons.2
      ⟨hlo.read_or_constant.imp_left ?_,
        List.forall_mem_singleton.2 (hhi.read_or_constant.imp_left ?_)⟩⟩
    · rintro ⟨o, ho, hread⟩
      exact ⟨o, List.mem_cons_of_mem _ (List.mem_append_left _ ho), hread⟩
    · rintro ⟨o, ho, hread⟩
      exact ⟨o, List.mem_cons_of_mem _ (List.mem_append_right _ ho), hread⟩
  | membership hm hs =>
    refine List.forall_mem_cons.2 ⟨.inl ⟨_, List.mem_cons_self, hm⟩, fun v hv => ?_⟩
    obtain ⟨o, hmem, ho⟩ := exists_of_forall₂ hs.flip hv
    exact .inl ⟨o, List.mem_cons_of_mem _ hmem, ho⟩
  | mimcHash hp hi =>
    refine List.forall_mem_cons.2 ⟨.inl ⟨_, List.mem_cons_self, hp⟩, ?_⟩
    exact List.forall_mem_singleton.2 (.inl ⟨_, by simp [Predicate.arguments], hi⟩)
  | @merkleTree root tree span w t hr ht =>
    refine List.forall_mem_cons.2 ⟨.inl ⟨_, List.mem_cons_self, hr⟩, fun v hv => ?_⟩
    have hleaves : tree.root.leaves.map read = t.leaves.map .ok := by
      rw [← Tree.leaves_map, ht, Tree.leaves_map]
    obtain ⟨o, hmem, ho⟩ := List.mem_map.1 (hleaves ▸ List.mem_map_of_mem hv)
    exact .inl ⟨o, List.mem_cons_of_mem _ hmem, ho⟩

theorem fields_eq_ok {subjects : Table Subject} {elements : List (String × Element)}
    {table : Table FieldValue} (h : scope.fields subjects elements = .ok table) :
    List.Forall₂ (fun e f => ∃ value, scope.element subjects e.2 = .ok value ∧ f = (e.1, value))
      elements table := by
  refine (mapM_eq_ok_iff.1 h).imp ?_
  rintro ⟨name, element⟩ field hfield
  obtain ⟨value, hvalue, hfield⟩ := bind_eq_ok_iff.1 hfield
  cases hfield
  exact ⟨value, hvalue, rfl⟩

theorem fields_pair {subjects : Table Subject} {a b : String} {e e' : Element}
    {table : Table FieldValue} (h : scope.fields subjects [(a, e), (b, e')] = .ok table) :
    ∃ f f', table = [(a, f), (b, f')] ∧ scope.element subjects e = .ok f ∧
      scope.element subjects e' = .ok f' := by
  rcases fields_eq_ok h with _ | ⟨⟨f, hf, rfl⟩, _ | ⟨⟨f', hf', rfl⟩, _ | _⟩⟩
  exact ⟨f, f', rfl, hf, hf'⟩

theorem fields_triple {subjects : Table Subject} {a b c : String} {e e' e'' : Element}
    {table : Table FieldValue} (h : scope.fields subjects [(a, e), (b, e'), (c, e'')] = .ok table) :
    ∃ f f' f'', table = [(a, f), (b, f'), (c, f'')] ∧ scope.element subjects e = .ok f ∧
      scope.element subjects e' = .ok f' ∧ scope.element subjects e'' = .ok f'' := by
  rcases fields_eq_ok h with
    _ | ⟨⟨f, hf, rfl⟩, _ | ⟨⟨f', hf', rfl⟩, _ | ⟨⟨f'', hf'', rfl⟩, _ | _⟩⟩⟩
  exact ⟨f, f', f'', rfl, hf, hf', hf''⟩

theorem element_single {subjects : Table Subject} {operand : Operand} {f : FieldValue}
    (h : scope.element subjects (.single operand) = .ok f) :
    ∃ v, scope.operand subjects operand = .ok v ∧ f = .single v := by
  obtain ⟨v, hv, rfl⟩ := map_eq_ok_iff.1 h
  exact ⟨v, hv, rfl⟩

theorem element_list {subjects : Table Subject} {operands : List Operand} {f : FieldValue}
    (h : scope.element subjects (.list operands) = .ok f) :
    ∃ vs, List.Forall₂ (fun o v => scope.operand subjects o = .ok v) operands vs ∧
      f = .list vs := by
  obtain ⟨vs, hvs, rfl⟩ := map_eq_ok_iff.1 h
  exact ⟨vs, mapM_eq_ok_iff.1 hvs, rfl⟩

theorem element_tree {subjects : Table Subject} {tree : OperandTree} {f : FieldValue}
    (h : scope.element subjects (.tree tree) = .ok f) :
    ∃ t, tree.root.map (scope.operand subjects) = t.map .ok ∧ f = .tree t := by
  obtain ⟨t, ht, rfl⟩ := map_eq_ok_iff.1 h
  exact ⟨t, Tree.mapM_eq_ok_iff.1 ht, rfl⟩

/-- The bound that a field left out or given stands for. -/
theorem element_ofOption {subjects : Table Subject} {operand? : Option Operand} {f : FieldValue}
    (h : scope.element subjects (.ofOption operand?) = .ok f) (limit : Int) :
    (∃ v, f = .single v ∧ BuildsBound (scope.operand subjects) limit operand? v) ∨
      f = .absent ∧ BuildsBound (scope.operand subjects) limit operand?
        (.constant (.integer limit)) := by
  cases operand? with
  | none =>
    cases h
    exact .inr ⟨rfl, .absent⟩
  | some operand =>
    obtain ⟨v, hv, rfl⟩ := element_single h
    exact .inl ⟨v, rfl, .given hv⟩

theorem find?_standard (kind : PredicateKind) : Registry.standard.find? kind = some kind := by
  cases kind <;> rfl

theorem gadget_eq_fields {subjects : Table Subject} {p : Predicate} {g : Gadget}
    (hreg : scope.registry = .standard) (h : scope.gadget subjects p = .ok g) :
    ∃ table, scope.fields subjects p.fields = .ok table ∧
      Gadget.ofFields ⟨p.span.pin scope.source, table⟩ p.kind = .ok g ∧ g.check = .ok () := by
  unfold gadget at h
  rw [hreg, find?_standard] at h
  obtain ⟨table, htable, h⟩ := bind_eq_ok_iff.1 h
  obtain ⟨g', hg, h⟩ := bind_eq_ok_iff.1 (mapError_eq_ok_iff.1 h)
  obtain ⟨hcheck, h⟩ := seq_eq_ok_iff.1 h
  cases h
  exact ⟨table, htable, hg, hcheck⟩

/-- **The arguments of a predicate fit its gadget**: nothing but an empty set can be wrong about
them. -/
theorem ofFields_cases {subjects : Table Subject} {p : Predicate} {table : Table FieldValue}
    (htable : scope.fields subjects p.fields = .ok table) (position : Position) :
    (∃ g, Gadget.ofFields ⟨position, table⟩ p.kind = .ok g ∧ Builds (scope.operand subjects) p g) ∨
      ∃ message, Gadget.ofFields ⟨position, table⟩ p.kind =
        .error (.located .invalidValue position message) := by
  cases p with
  | equality left right span =>
    obtain ⟨f, f', rfl, hl, hr⟩ := fields_pair htable
    obtain ⟨x, hx, rfl⟩ := element_single hl
    obtain ⟨y, hy, rfl⟩ := element_single hr
    exact .inl ⟨_, rfl, .equality hx hy⟩
  | inequality left right span =>
    obtain ⟨f, f', rfl, hl, hr⟩ := fields_pair htable
    obtain ⟨x, hx, rfl⟩ := element_single hl
    obtain ⟨y, hy, rfl⟩ := element_single hr
    exact .inl ⟨_, rfl, .inequality hx hy⟩
  | bounds value min max span =>
    obtain ⟨f, lo, hi, rfl, hv, hlo, hhi⟩ := fields_triple htable
    obtain ⟨v, hread, rfl⟩ := element_single hv
    obtain ⟨x, rfl, hx⟩ | ⟨rfl, hx⟩ := element_ofOption hlo Bounds.least <;>
    obtain ⟨y, rfl, hy⟩ | ⟨rfl, hy⟩ := element_ofOption hhi Bounds.greatest <;>
    exact .inl ⟨_, rfl, .bounds hread hx hy⟩
  | membership member set span =>
    obtain ⟨f, f', rfl, hm, hs⟩ := fields_pair htable
    obtain ⟨v, hv, rfl⟩ := element_single hm
    obtain ⟨vs, hvs, rfl⟩ := element_list hs
    cases vs with
    | nil => exact .inr ⟨_, rfl⟩
    | cons w ws => exact .inl ⟨_, rfl, .membership hv hvs⟩
  | mimcHash preimage image span =>
    obtain ⟨f, f', rfl, hp, hi⟩ := fields_pair htable
    obtain ⟨x, hx, rfl⟩ := element_single hp
    obtain ⟨y, hy, rfl⟩ := element_single hi
    exact .inl ⟨_, rfl, .mimcHash hx hy⟩
  | merkleTree root tree span =>
    obtain ⟨f, f', rfl, hr, ht⟩ := fields_pair htable
    obtain ⟨v, hv, rfl⟩ := element_single hr
    obtain ⟨t, hleaves, rfl⟩ := element_tree ht
    exact .inl ⟨_, rfl, .merkleTree hv hleaves⟩

/-- **The gadget of a predicate is built from its operands and meets its contract.** -/
theorem gadget_eq_ok {subjects : Table Subject} {p : Predicate} {g : Gadget}
    (hreg : scope.registry = .standard) (h : scope.gadget subjects p = .ok g) :
    Builds (scope.operand subjects) p g ∧ g.check = .ok () := by
  obtain ⟨table, htable, hg, hcheck⟩ := gadget_eq_fields hreg h
  refine ⟨?_, hcheck⟩
  rcases ofFields_cases htable (p.span.pin scope.source) with ⟨g', hg', hbuilds⟩ | ⟨message, hg'⟩
  · rw [hg] at hg'
    cases hg'
    exact hbuilds
  · rw [hg] at hg'
    cases hg'

end Scope

end Attestation
