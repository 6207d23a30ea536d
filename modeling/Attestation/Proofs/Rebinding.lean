import Attestation.Proofs.StatementParts
import Attestation.Proofs.RenamedRun

/-!
# Other witness data and other sources

What a compilation does with other data for the witnesses, and if sources have other numbers. Data
matches up to a renaming if in the fields that are read the renamed values are found, or the same
faults (`DataContext.Matches`). Then everything that is resolved is resolved to the same up to the
renaming, and every error is the renamed error; this is followed through operands, gadgets,
statements and rules (`Scope.compile_rebind`). With the same numbers for sources, it holds of whole
requests (`Request.compile?_rebind`).
-/

namespace Attestation

open Syntax

variable (w : Table Accessor) (ρ : Renaming)

/-- The context with other witness data and other numbers for sources. -/
def DataContext.rebind (context : DataContext) : DataContext :=
  { context with witness := w, ruleSources := context.ruleSources.mapValues ρ.source }

/-- The scope with other witness data and other numbers for sources. -/
def Scope.rebind (scope : Scope) : Scope :=
  { scope with context := scope.context.rebind w ρ, source := ρ.source scope.source }

/-- The subject in the source with the new number and with other data, if it is a witness. -/
def Subject.rebind (subject : Subject) : Subject :=
  { subject with
    accessor :=
      match subject.visibility with
      | .witness => (w.find? subject.name).getD (.synthetic subject.name subject.schema)
      | .disclosed => subject.accessor
    position := subject.position.rename ρ }

/-- Subjects with other data for the witnesses among them. -/
def rebindAll (subjects : Table Subject) : Table Subject :=
  subjects.mapValues (Subject.rebind w ρ)

namespace DataContext

variable (context : DataContext)

/-- Data has been supplied for witnesses, but none for this one. -/
def Missing (name : String) : Prop :=
  (context.witness.find? name).isNone ∧ ¬ context.witness.isEmpty

/-- What is found in a witness field. -/
def fetch (r : Reference) : Except AccessFault Literal :=
  match context.witness.find? r.subject with
  | some accessor => accessor.get r.selector r.type
  | none => .ok (.sealed r)

/-- What is held in a witness field is what is found there. -/
theorem held?_eq_some_iff {context : DataContext} {r : Reference} {l : Literal} :
    context.held? .witness r = some l ↔ context.fetch r = .ok l := by
  unfold held? fetch
  dsimp only
  cases context.witness.find? r.subject with
  | none => simp
  | some accessor => exact toOption_eq_some_iff

/-- Other witness data has the same subjects of a statement, and the renamed values in the fields
that it reads. -/
structure Matches (about : Option String) (statement : Statement) : Prop where
  missing : ∀ name ∈ statement.witnesses about,
    context.Missing name ↔ (context.rebind w ρ).Missing name
  fetched : ∀ r ∈ context.reads about statement,
    (context.rebind w ρ).fetch r = (context.fetch r).map ρ.literal

/-- The data matches for the statement and for the rules that apply to it. -/
def MatchesAll (statement : Statement) : Prop :=
  ∀ part ∈ context.parts statement, context.Matches w ρ part.1 part.2

end DataContext

/-! ## Subjects -/

theorem find?_rebindAll (subjects : Table Subject) (name : String) :
    (rebindAll w ρ subjects).find? name = (subjects.find? name).map (Subject.rebind w ρ) :=
  subjects.find?_mapValues (Subject.rebind w ρ) name

namespace Scope

variable {w ρ} {scope : Scope}

theorem declaredAlias_rebind (ident : Ident) :
    (scope.rebind w ρ).declaredAlias ident =
      mapBoth (.rename ρ) id (scope.declaredAlias ident) := by
  have hparent : (scope.rebind w ρ).parent = scope.parent := rfl
  unfold declaredAlias
  rw [hparent]
  split_ifs
  · cases scope.parent <;> rfl
  · rfl

theorem subject_rebind {name : String} {schema : Schema} {visibility : Visibility}
    (position : Position) (h : visibility = .witness →
      (scope.context.Missing name ↔ (scope.context.rebind w ρ).Missing name)) :
    (scope.rebind w ρ).subject name schema visibility (position.rename ρ) =
      mapBoth (.rename ρ) (.rebind w ρ) (scope.subject name schema visibility position) := by
  cases visibility with
  | witness =>
    have hmissing : ((scope.context.witness.find? name).isNone ∧ ¬ scope.context.witness.isEmpty) ↔
        (((scope.rebind w ρ).context.witness.find? name).isNone ∧
          ¬ (scope.rebind w ρ).context.witness.isEmpty) := h rfl
    simp only [Scope.subject, ← hmissing]
    split_ifs <;> rfl
  | disclosed =>
    have hsame : (scope.rebind w ρ).context.disclosed.find? name =
        scope.context.disclosed.find? name := rfl
    simp only [Scope.subject, Subject.disclosed, hsame]
    cases scope.context.disclosed.find? name <;> rfl

theorem declare_rebind {subjects : Table Subject} {d : Declaration} (h : d.visibility = .witness →
      (scope.context.Missing (standsFor scope.parent d.subject.name) ↔
        (scope.context.rebind w ρ).Missing (standsFor scope.parent d.subject.name))) :
    (scope.rebind w ρ).declare (rebindAll w ρ subjects) d =
      mapBoth (.rename ρ) (rebindAll w ρ) (scope.declare subjects d) := by
  have hschema : (scope.rebind w ρ).context.schema? d.schema.name =
      scope.context.schema? d.schema.name := rfl
  unfold declare
  rw [declaredAlias_rebind]
  refine bind_mapBoth fun name hname => ?_
  rw [declaredAlias_eq_ok hname] at h
  simp only [id_eq, find?_rebindAll, hschema]
  cases subjects.find? name with
  | some existing => rfl
  | none =>
    dsimp only [Option.map_none]
    cases scope.context.schema? d.schema.name with
    | none => rfl
    | some schema =>
      have hsubject : (scope.rebind w ρ).subject name schema d.visibility
          (d.subject.span.pin (scope.rebind w ρ).source) =
          mapBoth (.rename ρ) (.rebind w ρ)
            (scope.subject name schema d.visibility (d.subject.span.pin scope.source)) :=
        subject_rebind (d.subject.span.pin scope.source) h
      dsimp only
      rw [hsubject]
      refine bind_mapBoth fun subject _ => ?_
      simp [rebindAll, Table.mapValues, pure, Except.pure]

theorem foldlM_declare_rebind {ds : List Declaration}
    (h : ∀ d ∈ ds, d.visibility = .witness →
      (scope.context.Missing (standsFor scope.parent d.subject.name) ↔
        (scope.context.rebind w ρ).Missing (standsFor scope.parent d.subject.name))) :
    ∀ subjects, ds.foldlM (scope.rebind w ρ).declare (rebindAll w ρ subjects) =
      mapBoth (.rename ρ) (rebindAll w ρ) (ds.foldlM scope.declare subjects) := by
  induction ds with
  | nil => exact fun _ => rfl
  | cons d rest ih =>
    intro subjects
    have hrest := ih fun d' hd' => h d' (List.mem_cons_of_mem _ hd')
    rw [List.foldlM_cons, List.foldlM_cons, declare_rebind (h d List.mem_cons_self)]
    exact bind_mapBoth fun next _ => hrest next

theorem declareAll_rebind {statement : Statement}
    (h : ∀ name ∈ statement.witnesses scope.parent,
      scope.context.Missing name ↔ (scope.context.rebind w ρ).Missing name) :
    (scope.rebind w ρ).declareAll statement.subjects =
      mapBoth (.rename ρ) (rebindAll w ρ) (scope.declareAll statement.subjects) := by
  refine foldlM_declare_rebind (fun d hd hvis => h _ ?_) []
  exact List.mem_filterMap.2 ⟨d, hd, if_pos hvis⟩

end Scope

/-! ## Operands -/

/-- The value of a subject in a field, if the renamed one is found in other data. -/
theorem Subject.resolve_rebind {subject : Subject} {selector : Selector} (position : Position)
    (h : subject.visibility = .witness → ∀ type, subject.schema.fieldType selector = .ok type →
      (subject.rebind w ρ).accessor.get selector type =
        (subject.accessor.get selector type).map ρ.literal) :
    (subject.rebind w ρ).resolve selector (position.rename ρ) =
      mapBoth (.rename ρ) (.rename ρ) (subject.resolve selector position) := by
  have hexposes : (subject.rebind w ρ).exposes selector = subject.exposes selector := rfl
  have hschema : (subject.rebind w ρ).schema = subject.schema := rfl
  unfold Subject.resolve
  rw [hexposes]
  split_ifs
  · rfl
  · unfold Subject.lookup
    rw [hschema]
    cases ht : subject.schema.fieldType selector with
    | error fault => rfl
    | ok type =>
      cases hv : subject.visibility with
      | disclosed =>
        have haccessor : (subject.rebind w ρ).accessor = subject.accessor := by
          simp [Subject.rebind, hv]
        simp only [bind, Except.bind, haccessor]
        cases subject.accessor.get selector type with
        | error fault => rfl
        | ok l => simp [pure, Except.pure, Variable.rename, Subject.rebind, hv]
      | witness =>
        simp only [bind, Except.bind, h hv type ht]
        cases subject.accessor.get selector type with
        | error fault => rfl
        | ok l => simp [Except.map, pure, Except.pure, Variable.rename, Subject.rebind, hv]

section

variable {w ρ} {scope : Scope} {ds : List Declaration} {subjects : Table Subject}

/-- In the fields of a witness subject is found what its data gives. -/
theorem Scope.fetch_eq {name : String} {schema : Schema} {accessor : Accessor}
    (h : scope.supply? name schema .witness = some accessor) {selector : Selector}
    {type : DataType} (ht : schema.fieldType selector = .ok type) :
    scope.context.fetch ⟨type, name, selector⟩ = accessor.get selector type := by
  cases h
  unfold DataContext.fetch
  dsimp only
  cases scope.context.witness.find? name with
  | none => exact (Accessor.get_synthetic ht).symm
  | some data => rfl

variable (w ρ) in
/-- Other data of a witness subject is what the context with other data supplies. -/
theorem Scope.supply?_rebind {name : String} {schema : Schema} {subject : Subject}
    (h : scope.Binds name schema .witness subject) :
    (scope.rebind w ρ).supply? name schema .witness = some (subject.rebind w ρ).accessor := by
  simp [Scope.supply?, Subject.rebind, h.visibility_eq, h.name_eq, h.schema_eq, Scope.rebind,
    DataContext.rebind]

theorem Scope.operand_rebind (hds : List.Forall₂ scope.Declares ds subjects) {operand : Operand}
    (hfetch : ∀ r, scope.context.read? scope.parent ds operand = some r →
      (scope.context.rebind w ρ).fetch r = (scope.context.fetch r).map ρ.literal) :
    (scope.rebind w ρ).operand (rebindAll w ρ subjects) operand =
      mapBoth (.rename ρ) (.rename ρ) (scope.operand subjects operand) := by
  cases operand with
  | literal constant span =>
    unfold Scope.operand
    dsimp only
    cases Literal.ofConstant constant <;> rfl
  | identifier name selector span =>
    have halias : (scope.rebind w ρ).referencedAlias name = scope.referencedAlias name := rfl
    unfold Scope.operand
    simp only [find?_rebindAll, halias]
    cases hfind : subjects.find? (scope.referencedAlias name) with
    | none => rfl
    | some subject =>
      refine Subject.resolve_rebind w ρ (span.pin scope.source) fun hvis type htype => ?_
      rw [referencedAlias_eq] at hfind
      obtain ⟨d, hd, ⟨-, schema, hschema, hsubject⟩⟩ := find?_of_declares hds hfind
      have hbinds := subject_eq_ok hsubject
      have hdvis : d.visibility = .witness := hbinds.visibility_eq.symm.trans hvis
      rw [hdvis] at hbinds
      rw [hbinds.schema_eq] at htype
      have hread : scope.context.read? scope.parent ds (.identifier name selector span) =
          some ⟨type, standsFor scope.parent name, selector⟩ := by
        simp only [DataContext.read?, DataContext.field?, hd, Option.bind_some, hschema, htype,
          Except.toOption, Option.map_some, hdvis]
      rw [← fetch_eq hbinds.accessor_eq htype, ← fetch_eq (supply?_rebind w ρ hbinds) htype]
      exact hfetch _ hread

namespace Scope

theorem element_rebind {element : Element}
    (h : ∀ o ∈ element.operands, (scope.rebind w ρ).operand (rebindAll w ρ subjects) o =
      mapBoth (.rename ρ) (.rename ρ) (scope.operand subjects o)) :
    (scope.rebind w ρ).element (rebindAll w ρ subjects) element =
      mapBoth (.rename ρ) (.rename ρ) (scope.element subjects element) := by
  cases element with
  | single operand =>
    simp only [Scope.element, h operand (List.mem_singleton_self operand)]
    exact mapBoth_map fun _ => rfl
  | absent => rfl
  | list operands =>
    have hall : operands.mapM ((scope.rebind w ρ).operand (rebindAll w ρ subjects)) =
        mapBoth (.rename ρ) (List.map (.rename ρ)) (operands.mapM (scope.operand subjects)) :=
      mapM_mapBoth h
    simp only [Scope.element, hall]
    exact mapBoth_map fun _ => rfl
  | tree t =>
    have hall : t.root.mapM ((scope.rebind w ρ).operand (rebindAll w ρ subjects)) =
        mapBoth (.rename ρ) (Tree.map (.rename ρ)) (t.root.mapM (scope.operand subjects)) :=
      Tree.mapM_mapBoth h
    simp only [Scope.element, hall]
    exact mapBoth_map fun _ => rfl

theorem fields_rebind {elements : List (String × Element)}
    (h : ∀ entry ∈ elements, ∀ o ∈ entry.2.operands,
      (scope.rebind w ρ).operand (rebindAll w ρ subjects) o =
        mapBoth (.rename ρ) (.rename ρ) (scope.operand subjects o)) :
    (scope.rebind w ρ).fields (rebindAll w ρ subjects) elements =
      mapBoth (.rename ρ) (Table.mapValues (.rename ρ)) (scope.fields subjects elements) := by
  refine mapM_mapBoth ?_
  rintro ⟨name, element⟩ hmem
  dsimp only
  rw [element_rebind (h (name, element) hmem)]
  exact bind_mapBoth fun _ _ => rfl

theorem placed_rename (position : Position) (error : Diagnostic) :
    placed (position.rename ρ) (error.rename ρ) = (placed position error).rename ρ := by
  unfold placed
  rw [Diagnostic.position?_rename]
  cases error.position? with
  | none => exact (Diagnostic.withLabel_rename ρ error position "in this predicate").symm
  | some _ => rfl

theorem gadget_rebind {p : Predicate}
    (h : ∀ o ∈ p.operands, (scope.rebind w ρ).operand (rebindAll w ρ subjects) o =
      mapBoth (.rename ρ) (.rename ρ) (scope.operand subjects o)) :
    (scope.rebind w ρ).gadget (rebindAll w ρ subjects) p =
      mapBoth (.rename ρ) (.rename ρ) (scope.gadget subjects p) := by
  have hfields : (scope.rebind w ρ).fields (rebindAll w ρ subjects) p.fields =
      mapBoth (.rename ρ) (Table.mapValues (.rename ρ)) (scope.fields subjects p.fields) :=
    fields_rebind fun entry hentry o ho => h o (List.mem_flatMap.2 ⟨entry, hentry, ho⟩)
  have hregistry : (scope.rebind w ρ).registry = scope.registry := rfl
  unfold gadget
  rw [hregistry]
  cases scope.registry.find? p.kind with
  | none => rfl
  | some kind =>
    dsimp only
    rw [hfields]
    refine bind_mapBoth fun table _ => ?_
    have hconstruct : Gadget.construct kind
          ⟨p.span.pin (scope.rebind w ρ).source, table.mapValues (.rename ρ)⟩ =
        mapBoth (.rename ρ) (.rename ρ)
          (Gadget.construct kind ⟨p.span.pin scope.source, table⟩) :=
      Gadget.construct_rename ρ kind ⟨p.span.pin scope.source, table⟩
    rw [hconstruct]
    cases Gadget.construct kind ⟨p.span.pin scope.source, table⟩ with
    | error e => exact congrArg Except.error (placed_rename (p.span.pin scope.source) e)
    | ok g => rfl

end Scope

end

/-! ## Statements -/

/-- The resolved statement with other witness data. -/
def Resolved.rename (r : Resolved) : Resolved :=
  ⟨rebindAll w ρ r.subjects, r.gadgets.map (Gadget.rename ρ), r.warnings.map (Diagnostic.rename ρ)⟩

namespace Scope

variable {w ρ} {scope : Scope} {statement : Statement}

theorem filter_rebindAll (used : String → Bool) (subjects : Table Subject) :
    (rebindAll w ρ subjects).filter (fun entry => used entry.1) =
      rebindAll w ρ (subjects.filter fun entry => used entry.1) := by
  unfold rebindAll Table.mapValues
  rw [List.filter_map]
  rfl

theorem collect_rebind (subjects : Table Subject) (gadgets : List Gadget) :
    (scope.rebind w ρ).collect statement (rebindAll w ρ subjects) (gadgets.map (Gadget.rename ρ)) =
      (scope.collect statement subjects gadgets).rename w ρ := by
  have hused : (scope.rebind w ρ).usedAliases statement.predicates =
      scope.usedAliases statement.predicates := rfl
  have hwarning : ∀ name subject, (scope.rebind w ρ).unusedWarning? name (subject.rebind w ρ) =
      (scope.unusedWarning? name subject).map (Diagnostic.rename ρ) := by
    intro name subject
    have hparent : (scope.rebind w ρ).parent = scope.parent := rfl
    simp only [unusedWarning?, hparent]
    split_ifs <;> rfl
  have hwarnings : ∀ unused : Table Subject,
      ((rebindAll w ρ unused).filterMap fun entry =>
          (scope.rebind w ρ).unusedWarning? entry.1 entry.2) =
        (unused.filterMap fun entry => scope.unusedWarning? entry.1 entry.2).map
          (Diagnostic.rename ρ) := by
    intro unused
    unfold rebindAll Table.mapValues
    rw [List.filterMap_map, List.map_filterMap]
    exact congrArg (List.filterMap · unused) (funext fun entry => hwarning entry.1 entry.2)
  simp only [collect, hused, filter_rebindAll, hwarnings,
    filter_rebindAll fun name => !(scope.usedAliases statement.predicates).contains name]
  rfl

variable (scope) in
/-- **A statement is resolved to the same with other witness data and sources**, up to the renaming
that the data matches by. -/
theorem resolve_rebind (h : scope.context.Matches w ρ scope.parent statement) :
    (scope.rebind w ρ).resolve statement =
      mapBoth (.rename ρ) (.rename w ρ) (scope.resolve statement) := by
  rw [resolve_eq, resolve_eq, declareAll_rebind h.missing]
  refine bind_mapBoth fun subjects hsubjects => ?_
  have hgadgets : statement.predicates.mapM ((scope.rebind w ρ).gadget (rebindAll w ρ subjects)) =
      mapBoth (.rename ρ) (List.map (.rename ρ))
        (statement.predicates.mapM (scope.gadget subjects)) := by
    refine mapM_mapBoth fun p hp => gadget_rebind fun o ho => ?_
    refine operand_rebind (declareAll_eq_ok hsubjects) fun r hr => h.fetched r ?_
    rw [operands_eq_arguments] at ho
    exact List.mem_filterMap.2 ⟨o, List.mem_flatMap.2 ⟨p, hp, ho⟩, hr⟩
  rw [hgadgets]
  refine bind_mapBoth fun gadgets _ => ?_
  rw [collect_rebind]
  rfl

/-! ## Rules -/

/-- The gadgets and warnings of a rule with other values for witnesses. -/
def renameRule (ρ : Renaming) (r : List Gadget × List Diagnostic) : List Gadget × List Diagnostic :=
  (r.1.map (Gadget.rename ρ), r.2.map (Diagnostic.rename ρ))

/-- The rule of a subject with other witness data comes to the same up to the renaming. -/
theorem ruleOf_rebind {subject : Subject} (h : subject.visibility = .witness →
      ∀ rule, subject.schema.rule = some rule →
        scope.context.Matches w ρ (some subject.name) rule) :
    (scope.rebind w ρ).ruleOf (subject.rebind w ρ) =
      mapBoth (.rename ρ) (renameRule ρ) (scope.ruleOf subject) := by
  have hvisibility : (subject.rebind w ρ).visibility = subject.visibility := rfl
  have hschema : (subject.rebind w ρ).schema = subject.schema := rfl
  have hsource : (scope.rebind w ρ).context.ruleSource? subject.schema =
      (scope.context.ruleSource? subject.schema).map ρ.source :=
    scope.context.ruleSources.find?_mapValues ρ.source subject.schema.name
  unfold ruleOf
  rw [hvisibility, hschema, hsource]
  cases hvis : subject.visibility with
  | disclosed => rfl
  | witness =>
    cases hrule : subject.schema.rule with
    | none => rfl
    | some rule =>
      dsimp only
      cases scope.context.ruleSource? subject.schema with
      | none => rfl
      | some source =>
        have hresolve : ((scope.rebind w ρ).nested (ρ.source source) subject.name).resolve rule =
            mapBoth (.rename ρ) (.rename w ρ)
              ((scope.nested source subject.name).resolve rule) :=
          resolve_rebind (scope.nested source subject.name) (h hvis rule hrule)
        change ((scope.rebind w ρ).nested (ρ.source source) subject.name).resolve rule >>= _ = _
        rw [hresolve]
        exact bind_mapBoth fun resolved _ => rfl

theorem resolveWithRules_rebind (hparent : scope.parent = none)
    (h : scope.context.MatchesAll w ρ statement) :
    (scope.rebind w ρ).resolveWithRules statement =
      mapBoth (.rename ρ) (.rename w ρ) (scope.resolveWithRules statement) := by
  have hmain : scope.context.Matches w ρ scope.parent statement :=
    hparent ▸ h (none, statement) List.mem_cons_self
  unfold resolveWithRules
  rw [scope.resolve_rebind hmain]
  refine bind_mapBoth fun main hresolve => ?_
  have hrules : (rebindAll w ρ main.subjects).mapM
        (fun entry => (scope.rebind w ρ).ruleOf entry.2) =
      mapBoth (.rename ρ) (List.map (renameRule ρ))
        (main.subjects.mapM fun entry : String × Subject => scope.ruleOf entry.2) := by
    unfold rebindAll Table.mapValues
    rw [List.mapM_map]
    refine mapM_mapBoth ?_
    rintro ⟨name, subject⟩ hentry
    refine ruleOf_rebind fun hvis rule hrule => ?_
    have hname : subject.name = name := name_of_mem_subjects hresolve hentry
    rw [hname]
    exact h (some name, rule) (DataContext.mem_parts_of_mem_governing
      ((mem_governing_iff hparent hresolve).2 ⟨subject, hentry, hvis, hrule⟩))
  change (rebindAll w ρ main.subjects).mapM (fun entry => (scope.rebind w ρ).ruleOf entry.2) >>= _ =
    _
  rw [hrules]
  refine bind_mapBoth fun rules _ => ?_
  simp [Resolved.rename, renameRule, pure, Except.pure, List.flatMap_map, List.map_flatMap]

variable {P : Gadget → Prop}

variable (scope) in
/-- **A statement compiles to the same with other witness data and sources**, up to the renaming
that the data matches by, or to the renamed error. -/
theorem compile_rebind (hparent : scope.parent = none)
    (h : scope.context.MatchesAll w ρ statement) (hP : KeptByRules P)
    (hsteady : ∀ g, P g → g.Steady ρ) (rules : RuleSet) (cap : Nat)
    (hgadgets : ∀ r, scope.resolveWithRules statement = .ok r → ∀ g ∈ r.gadgets, P g) :
    (scope.rebind w ρ).compile rules cap statement =
      mapBoth (.rename ρ) (.rename w ρ) (scope.compile rules cap statement) := by
  unfold compile
  rw [resolveWithRules_rebind hparent h]
  refine bind_mapBoth fun r hr => ?_
  change Optimizer.optimize rules cap (r.gadgets.map (Gadget.rename ρ)) >>= _ = _
  rw [Optimizer.optimize_rename hP hsteady rules cap (hgadgets r hr)]
  exact bind_mapBoth fun _ _ => rfl

end Scope

/-! ## Requests -/

/-- The compiled statement with other witness data. -/
def Compiled.rename (c : Compiled) : Compiled :=
  ⟨rebindAll w ρ c.subjects, c.gadgets.map (Gadget.rename ρ)⟩

/-- The compilation with other witness data. -/
def Compilation.rename (c : Compilation) : Compilation :=
  { c with statement := c.statement.rename w ρ, premises := c.premises.map (Compiled.rename w ρ) }

/-- Data matches wherever rules are written. -/
theorem DataContext.MatchesAll.ruleSources {w : Table Accessor} {ρ : Renaming}
    {context : DataContext} {statement : Statement} (h : context.MatchesAll w ρ statement)
    (ruleSources : Table Nat) : { context with ruleSources }.MatchesAll w ρ statement :=
  fun part hpart => ⟨(h part hpart).missing, (h part hpart).fetched⟩

theorem Compiled.proves_rename (c : Compiled) (g : Gadget) :
    (c.rename w ρ).proves (g.rename ρ) = c.proves g :=
  GadgetSet.has_rename c.gadgets g

namespace Request

/-- The request with other witness data. -/
def rebind (request : Request) : Request :=
  { request with witness := w }

variable {w ρ} {P : Gadget → Prop} {context : DataContext}

/-- A property of all gadgets that a statement leads to, before they are optimized. -/
def Yields (context : DataContext) (P : Gadget → Prop) (statement : Statement) : Prop :=
  ∀ number r, (scope context number).resolveWithRules statement = .ok r → ∀ g ∈ r.gadgets, P g

theorem scope_rebind (context : DataContext) (number : Nat) :
    scope (context.rebind w ρ) (ρ.source number) = (scope context number).rebind w ρ :=
  rfl

variable (w ρ) in
theorem filter_proves_rename (premises : List Compiled) (gadgets : List Gadget) :
    ((gadgets.map (Gadget.rename ρ)).filter fun g =>
        !(premises.map (Compiled.rename w ρ)).any fun premise => premise.proves g) =
      (gadgets.filter fun g => !premises.any fun premise => premise.proves g).map
        (Gadget.rename ρ) := by
  rw [List.filter_map]
  simp only [Function.comp_def, List.any_map, Compiled.proves_rename]

section

variable (hρ : ρ.source = id) (hP : KeptByRules P) (hsteady : ∀ g, P g → g.Steady ρ)

include hρ hP hsteady

/-- A statement under its number, if sources keep their numbers. -/
theorem compile_scope_rebind {statement : Statement} (h : context.MatchesAll w ρ statement)
    (hyields : Yields context P statement) (cap number : Nat) :
    (scope (context.rebind w ρ) number).compile .standard cap statement =
      ((scope context number).compile .standard cap statement).map (Resolved.rename w ρ) := by
  have hnumber : ρ.source number = number := by rw [hρ, id]
  rw [← mapBoth_id, ← Diagnostic.rename_of_source_eq_id ρ hρ, ← hnumber, scope_rebind, hnumber]
  exact (scope context number).compile_rebind rfl h hP hsteady .standard cap (hyields number)

theorem compilePremises_rebind (sources : SourceMap) (cap number : Nat)
    (warnings : List Diagnostic) {premises : List Statement}
    (h : ∀ premise ∈ premises, context.MatchesAll w ρ premise)
    (hyields : ∀ premise ∈ premises, Yields context P premise) :
    compilePremises (context.rebind w ρ) sources cap number warnings premises =
      (compilePremises context sources cap number warnings premises).map fun compiled =>
        (compiled.1.map (Compiled.rename w ρ), compiled.2) := by
  induction premises generalizing number warnings with
  | nil => rfl
  | cons premise rest ih =>
    rw [compilePremises, compilePremises, compile_scope_rebind hρ hP hsteady
      (h premise List.mem_cons_self) (hyields premise List.mem_cons_self)]
    cases (scope context number).compile .standard cap premise with
    | error e => rfl
    | ok resolved =>
      have hrest := ih (number + 1) (warnings ++ resolved.warnings)
        (fun p hp => h p (List.mem_cons_of_mem _ hp))
        fun p hp => hyields p (List.mem_cons_of_mem _ hp)
      have hwarnings : (resolved.rename w ρ).warnings = resolved.warnings := by
        simp [Resolved.rename, Diagnostic.rename_of_source_eq_id ρ hρ]
      dsimp only [Except.map]
      rw [hwarnings, hrest]
      cases compilePremises context sources cap (number + 1) (warnings ++ resolved.warnings) rest <;>
        rfl

theorem compileIn_rebind (request : Request) (sources : SourceMap)
    (h : ∀ statement ∈ request.statement :: request.premises, context.MatchesAll w ρ statement)
    (hyields : ∀ statement ∈ request.statement :: request.premises, Yields context P statement) :
    (request.rebind w).compileIn (context.rebind w ρ) sources =
      (request.compileIn context sources).map (Compilation.rename w ρ) := by
  have hmain : (scope (context.rebind w ρ) 0).compile .standard (request.rebind w).cap
      (request.rebind w).statement =
        ((scope context 0).compile .standard request.cap request.statement).map
          (Resolved.rename w ρ) :=
    compile_scope_rebind hρ hP hsteady (h _ List.mem_cons_self) (hyields _ List.mem_cons_self)
      request.cap 0
  unfold compileIn
  rw [hmain]
  cases (scope context 0).compile .standard request.cap request.statement with
  | error e => rfl
  | ok main =>
    have hpremises := compilePremises_rebind hρ hP hsteady sources request.cap 1 main.warnings
      (fun p hp => h p (List.mem_cons_of_mem _ hp))
      fun p hp => hyields p (List.mem_cons_of_mem _ hp)
    have hwarnings : (main.rename w ρ).warnings = main.warnings := by
      simp [Resolved.rename, Diagnostic.rename_of_source_eq_id ρ hρ]
    have hrequest : (request.rebind w).cap = request.cap ∧
        (request.rebind w).premises = request.premises := ⟨rfl, rfl⟩
    dsimp only [Except.map]
    rw [hwarnings, hrequest.1, hrequest.2, hpremises]
    cases compilePremises context sources request.cap 1 main.warnings request.premises with
    | error e => rfl
    | ok compiled =>
      have hfilter := filter_proves_rename w ρ compiled.1 main.gadgets
      simp only [bind, Except.bind, Except.map, pure, Except.pure, Resolved.rename, hfilter]
      rfl

omit hP hsteady in
theorem registered_rebind (request : Request) :
    (request.rebind w).registered = request.registered.rebind w ρ := by
  have hnumbers := DataContext.numberRules_mapValues
    (fun k => show ρ.source (request.premises.length + 1 + k) = _ by rw [hρ]; rfl) request.schemas []
  exact congrArg (DataContext.mk request.schemas w request.disclosed) hnumbers

/-- **With other witness data a request compiles to the same** up to the renaming that the data
matches by, or fails in the same way. -/
theorem compile?_rebind (request : Request)
    (h : ∀ statement ∈ request.statement :: request.premises,
      request.context.MatchesAll w ρ statement)
    (hyields : ∀ statement ∈ request.statement :: request.premises, ∀ ruleSources,
      Yields { request.context with ruleSources } P statement) :
    (request.rebind w).compile? = request.compile?.map (Except.map (Compilation.rename w ρ)) := by
  have hsources : (request.rebind w).sources = request.sources := rfl
  have hfits : (request.rebind w).Fits ↔ request.Fits := Iff.rfl
  rw [compile?_eq, compile?_eq, registered_rebind hρ, hsources]
  by_cases hroom : request.Fits
  · rw [if_pos (hfits.2 hroom), if_pos hroom, Option.map_some]
    refine congrArg some (compileIn_rebind hρ hP hsteady request _ (fun st hst => ?_) fun st hst => ?_)
    · exact (h st hst).ruleSources request.registered.ruleSources
    · exact hyields st hst request.registered.ruleSources
  · rw [if_neg fun hr => hroom (hfits.1 hr), if_neg hroom, Option.map_none]

end

end Request

end Attestation
