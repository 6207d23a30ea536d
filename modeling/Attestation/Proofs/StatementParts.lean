import Attestation.Proofs.Registration
import Attestation.Proofs.Resolution

/-!
# What a compilation is made of

A statement is resolved together with the rules that apply to it. These are its parts: every part
is resolved in a scope of its own, and all gadgets come from parts
(`Scope.parts_of_resolveWithRules`). A part that is resolved has a gadget for each predicate, which
meets its contract (`Scope.builds_of_resolve`). A compilation that succeeds has resolved all parts
of the statement and of the premises and has optimized their gadgets (`Request.parts_of_compile`).
-/

namespace Attestation

open Syntax

namespace Scope

variable {scope : Scope} {statement : Statement} {r : Resolved}

/-! ## Statements -/

/-- The resolved statement with given subjects, declared in this order, and gadgets. -/
def collect (scope : Scope) (statement : Statement) (subjects : Table Subject)
    (gadgets : List Gadget) : Resolved where
  subjects := subjects.filter fun entry =>
    (scope.usedAliases statement.predicates).contains entry.1
  gadgets
  warnings := (subjects.filter fun entry =>
      !(scope.usedAliases statement.predicates).contains entry.1).filterMap fun entry =>
    scope.unusedWarning? entry.1 entry.2

/-- What is left after the walk through a statement. -/
theorem dropUnused_noting {subjects : Table Subject} (hkeys : subjects.keys.Nodup)
    (gadgets : List Gadget) :
    let (kept, warnings) :=
      scope.dropUnused subjects (noting [] (scope.usedAliases statement.predicates))
    (⟨kept, gadgets, warnings⟩ : Resolved) = scope.collect statement subjects gadgets := by
  have hused : ∀ name, (noting [] (scope.usedAliases statement.predicates)).contains name =
      (scope.usedAliases statement.predicates).contains name := by
    intro name
    rw [Bool.eq_iff_iff, List.contains_iff_mem, List.contains_iff_mem, mem_noting]
    simp
  simp only [dropUnused_eq scope hkeys, hused]
  rfl

theorem resolve_eq : scope.resolve statement = (do
    let subjects ← scope.declareAll statement.subjects
    let gadgets ← statement.predicates.mapM (scope.gadget subjects)
    return scope.collect statement subjects gadgets) := by
  refine bind_congr_ok fun subjects hsubjects => ?_
  rw [run_visits]
  cases statement.predicates.mapM (scope.gadget subjects) with
  | error e => rfl
  | ok gadgets =>
    exact congrArg Except.ok (dropUnused_noting (nodup_keys_of_declareAll hsubjects) gadgets)

theorem resolve_eq_ok (h : scope.resolve statement = .ok r) :
    ∃ subjects, scope.declareAll statement.subjects = .ok subjects ∧
      List.Forall₂ (fun p g => scope.gadget subjects p = .ok g) statement.predicates r.gadgets ∧
      r.subjects = subjects.filter
        fun entry => (scope.usedAliases statement.predicates).contains entry.1 := by
  rw [resolve_eq] at h
  obtain ⟨subjects, hsubjects, h⟩ := bind_eq_ok_iff.1 h
  obtain ⟨gadgets, hgadgets, h⟩ := bind_eq_ok_iff.1 h
  cases h
  exact ⟨subjects, hsubjects, mapM_eq_ok_iff.1 hgadgets, rfl⟩

theorem nodup_keys_of_resolve (h : scope.resolve statement = .ok r) : r.subjects.keys.Nodup := by
  obtain ⟨subjects, hsubjects, -, hkept⟩ := resolve_eq_ok h
  rw [hkept]
  exact (nodup_keys_of_declareAll hsubjects).sublist (List.filter_sublist.map _)

/-- The gadgets of a resolved statement are built from its predicates and meet their contracts. -/
theorem builds_of_resolve (hreg : scope.registry = .standard)
    (h : scope.resolve statement = .ok r) :
    ∃ subjects, List.Forall₂ scope.Declares statement.subjects subjects ∧
      List.Forall₂ (fun p g => Builds (scope.operand subjects) p g ∧ g.check = .ok ())
        statement.predicates r.gadgets := by
  obtain ⟨subjects, hsubjects, hgadgets, -⟩ := resolve_eq_ok h
  exact ⟨subjects, declareAll_eq_ok hsubjects, hgadgets.imp fun _ _ hpg => gadget_eq_ok hreg hpg⟩

theorem check_of_resolve (hreg : scope.registry = .standard)
    (h : scope.resolve statement = .ok r) : ∀ g ∈ r.gadgets, g.check = .ok () := by
  obtain ⟨subjects, -, hgadgets⟩ := builds_of_resolve hreg h
  intro g hg
  obtain ⟨p, -, hp⟩ := exists_of_forall₂ hgadgets.flip hg
  exact hp.2

/-! ## Rules -/

/-- What the rule of a subject comes to, if there is one for it. -/
theorem ruleOf_eq_ok {subject : Subject} {r : List Gadget × List Diagnostic}
    (h : scope.ruleOf subject = .ok r) :
    (∃ rule source resolved, subject.visibility = .witness ∧ subject.schema.rule = some rule ∧
      scope.context.ruleSource? subject.schema = some source ∧
      (scope.nested source subject.name).resolve rule = .ok resolved ∧ r.1 = resolved.gadgets) ∨
    (∀ rule, subject.visibility = .witness → subject.schema.rule ≠ some rule) ∧ r.1 = [] := by
  unfold ruleOf at h
  split at h
  case h_1 rule hvis hrule =>
    split at h
    case h_1 => cases h
    case h_2 source hsource =>
      obtain ⟨resolved, hresolved, h⟩ := bind_eq_ok_iff.1 h
      cases h
      exact .inl ⟨rule, source, resolved, hvis, hrule, hsource, hresolved, rfl⟩
  case h_2 hnone =>
    cases h
    exact .inr ⟨fun rule hvis hrule => hnone rule hvis hrule, rfl⟩

theorem operands_eq_arguments (p : Predicate) : p.operands = p.arguments := by
  cases p with
  | bounds value min max span => cases min <;> cases max <;> rfl
  | membership member set span => exact congrArg (member :: ·) (List.append_nil set)
  | merkleTree root tree span => exact congrArg (root :: ·) (List.append_nil tree.root.leaves)
  | _ => rfl

/-- The aliases that are noted on the way through a statement are those that it mentions. -/
theorem usedAliases_eq_map : scope.usedAliases statement.predicates =
    statement.mentions.map (standsFor scope.parent) := by
  unfold usedAliases Statement.mentions
  rw [show Predicate.operands = Predicate.arguments from funext operands_eq_arguments,
    List.map_filterMap]
  refine List.filterMap_congr fun operand _ => ?_
  cases operand with
  | identifier name selector span => simp [referencedAlias_eq]
  | literal constant span => rfl

/-- Outside of rules, the aliases that are used are those that operands refer to. -/
theorem usedAliases_eq_mentions (hparent : scope.parent = none) :
    scope.usedAliases statement.predicates = statement.mentions := by
  rw [usedAliases_eq_map, hparent]
  exact List.map_id _

theorem Declares.binds {d : Declaration} {entry : String × Subject} (h : scope.Declares d entry) :
    ∃ schema, scope.context.schema? d.schema.name = some schema ∧
      scope.Binds entry.1 schema d.visibility entry.2 := by
  obtain ⟨schema, hschema, hsubject⟩ := h.exists_schema
  exact ⟨schema, hschema, subject_eq_ok hsubject⟩

/-- The rules that apply to a statement are those of the witness subjects it keeps. -/
theorem mem_governing_iff (hparent : scope.parent = none)
    (h : scope.resolve statement = .ok r) {name : String} {rule : Statement} :
    (name, rule) ∈ scope.context.governing statement ↔ ∃ subject, (name, subject) ∈ r.subjects ∧
      subject.visibility = .witness ∧ subject.schema.rule = some rule := by
  obtain ⟨subjects, hsubjects, -, hkept⟩ := resolve_eq_ok h
  have hdeclares := declareAll_eq_ok hsubjects
  have hmem : ∀ entry, entry ∈ r.subjects ↔ entry ∈ subjects ∧ entry.1 ∈ statement.mentions := by
    intro entry
    rw [hkept, List.mem_filter, List.contains_iff_mem, usedAliases_eq_mentions hparent]
  unfold DataContext.governing
  rw [List.mem_filterMap]
  constructor
  · rintro ⟨d, hd, hrule⟩
    split_ifs at hrule with hused
    obtain ⟨rule', hrule', heq⟩ := Option.map_eq_some_iff.1 hrule
    cases heq
    obtain ⟨⟨name, subject⟩, hentry, hdec⟩ := exists_of_forall₂ hdeclares hd
    obtain ⟨schema, hschema, hbinds⟩ := hdec.binds
    have hname := declaredAlias_eq_ok hdec.declaredAlias
    rw [hparent] at hname
    cases hname
    refine ⟨subject, (hmem _).2 ⟨hentry, hused.2⟩, hbinds.visibility_eq.trans hused.1, ?_⟩
    rw [hschema] at hrule'
    rw [hbinds.schema_eq]
    exact hrule'
  · rintro ⟨subject, hentry, hvis, hrule⟩
    obtain ⟨hentry, hmentions⟩ := (hmem _).1 hentry
    obtain ⟨d, hd, hdec⟩ := exists_of_forall₂ hdeclares.flip hentry
    obtain ⟨schema, hschema, hbinds⟩ := hdec.binds
    have hname := declaredAlias_eq_ok hdec.declaredAlias
    rw [hparent] at hname
    cases hname
    refine ⟨d, hd, ?_⟩
    rw [if_pos ⟨hbinds.visibility_eq.symm.trans hvis, hmentions⟩, hschema, Option.bind_some,
      ← hbinds.schema_eq, hrule]
    rfl

/-- The subjects that are kept are declared. -/
theorem declares_of_mem_subjects (h : scope.resolve statement = .ok r) {entry : String × Subject}
    (hentry : entry ∈ r.subjects) : ∃ d ∈ statement.subjects, scope.Declares d entry := by
  obtain ⟨subjects, hsubjects, -, hkept⟩ := resolve_eq_ok h
  rw [hkept] at hentry
  exact exists_of_forall₂ (declareAll_eq_ok hsubjects).flip (List.mem_of_mem_filter hentry)

/-- The subjects that are kept go by their own names. -/
theorem name_of_mem_subjects (h : scope.resolve statement = .ok r)
    {entry : String × Subject} (hentry : entry ∈ r.subjects) : entry.2.name = entry.1 := by
  obtain ⟨d, -, hdec⟩ := declares_of_mem_subjects h hentry
  obtain ⟨schema, -, hbinds⟩ := hdec.binds
  exact hbinds.name_eq

/-- A statement resolved with the rules of the subjects it keeps. -/
theorem resolveWithRules_eq_ok (h : scope.resolveWithRules statement = .ok r) :
    ∃ main rules, scope.resolve statement = .ok main ∧
      List.Forall₂ (fun entry rule => scope.ruleOf entry.2 = .ok rule) main.subjects rules ∧
      r.gadgets = main.gadgets ++ rules.flatMap (·.1) ∧ r.subjects = main.subjects := by
  obtain ⟨main, hmain, h⟩ := bind_eq_ok_iff.1 h
  obtain ⟨rules, hrules, h⟩ := bind_eq_ok_iff.1 h
  cases h
  exact ⟨main, rules, hmain, mapM_eq_ok_iff.1 hrules, rfl, rfl⟩

/-- The scope of a part of a statement. -/
def part (scope : Scope) (source : Nat) (about : Option String) : Scope :=
  { scope with source, parent := about }

@[simp] theorem registry_part (source : Nat) (about : Option String) :
    (scope.part source about).registry = scope.registry := rfl

/-- Every part of a statement is resolved, and all gadgets come from its parts. -/
theorem parts_of_resolveWithRules (hparent : scope.parent = none)
    (h : scope.resolveWithRules statement = .ok r) :
    (∀ part ∈ scope.context.parts statement, ∃ source resolved,
      (scope.part source part.1).resolve part.2 = .ok resolved ∧ resolved.gadgets ⊆ r.gadgets) ∧
    ∀ g ∈ r.gadgets, ∃ part ∈ scope.context.parts statement, ∃ source resolved,
      (scope.part source part.1).resolve part.2 = .ok resolved ∧ g ∈ resolved.gadgets := by
  obtain ⟨main, rules, hmain, hrules, hr, -⟩ := resolveWithRules_eq_ok h
  have hscope : scope.part scope.source none = scope := by
    rw [← hparent]
    rfl
  have hmain' : (scope.part scope.source none).resolve statement = .ok main := by rw [hscope, hmain]
  constructor
  · intro part hpart
    rcases List.mem_cons.1 hpart with rfl | hpart
    · refine ⟨scope.source, main, hmain', ?_⟩
      rw [hr]
      exact List.subset_append_left _ _
    · obtain ⟨⟨name, rule⟩, hgoverns, rfl⟩ := List.mem_map.1 hpart
      obtain ⟨subject, hentry, hvis, hrule⟩ := (mem_governing_iff hparent hmain).1 hgoverns
      have hname : subject.name = name := name_of_mem_subjects hmain hentry
      obtain ⟨result, hresult, hruleOf⟩ := exists_of_forall₂ hrules hentry
      rcases ruleOf_eq_ok hruleOf with
        ⟨rule', source, resolved, -, hrule', -, hresolved, hgs⟩ | ⟨hnone, -⟩
      · cases hrule.symm.trans hrule'
        rw [hname] at hresolved
        refine ⟨source, resolved, hresolved, fun g hg => ?_⟩
        rw [hr]
        exact List.mem_append_right _ (List.mem_flatMap.2 ⟨result, hresult, hgs ▸ hg⟩)
      · exact absurd hrule (hnone rule hvis)
  · intro g hg
    rw [hr, List.mem_append] at hg
    rcases hg with hg | hg
    · exact ⟨(none, statement), List.mem_cons_self, scope.source, main, hmain', hg⟩
    · obtain ⟨result, hresult, hg⟩ := List.mem_flatMap.1 hg
      obtain ⟨⟨name, subject⟩, hentry, hruleOf⟩ := exists_of_forall₂ hrules.flip hresult
      have hname : subject.name = name := name_of_mem_subjects hmain hentry
      rcases ruleOf_eq_ok hruleOf with
        ⟨rule, source, resolved, hvis, hrule, -, hresolved, hgs⟩ | ⟨-, hgs⟩
      · rw [hname] at hresolved
        refine ⟨(some name, rule), DataContext.mem_parts_of_mem_governing
          ((mem_governing_iff hparent hmain).2 ⟨subject, hentry, hvis, hrule⟩), source, resolved,
          hresolved, hgs ▸ hg⟩
      · rw [hgs] at hg
        cases hg

theorem check_of_resolveWithRules (hreg : scope.registry = .standard)
    (hparent : scope.parent = none) (h : scope.resolveWithRules statement = .ok r) :
    ∀ g ∈ r.gadgets, g.check = .ok () := by
  intro g hg
  obtain ⟨part, -, source, resolved, hresolved, hg⟩ := (parts_of_resolveWithRules hparent h).2 g hg
  exact check_of_resolve ((registry_part ..).trans hreg) hresolved g hg

end Scope

/-! ## Requests -/

namespace DataContext

/-- A schema with a rule is supplied: none that is built in has one. -/
theorem mem_schemas_of_schema? {context : DataContext} {name : String} {schema : Schema}
    (h : context.schema? name = some schema) (hrule : schema.rule.isSome = true) :
    (name, schema) ∈ context.schemas := by
  unfold schema? at h
  split at h
  case h_1 hfind =>
    cases h
    exact Table.mem_of_find? hfind
  case h_2 =>
    unfold Schema.builtin? at h
    split_ifs at h
    cases h
    cases hrule

end DataContext

namespace Request

/-- Premises are compiled each under its own number. -/
theorem compilePremises_eq_ok_zipIdx {context : DataContext} {sources : SourceMap}
    {cap number : Nat} {warnings warnings' : List Diagnostic} {premises : List Statement}
    {compiled : List Compiled}
    (h : compilePremises context sources cap number warnings premises = .ok (compiled, warnings')) :
    List.Forall₂ (fun entry c => ∃ r,
      (scope context entry.2).compile .standard cap entry.1 = .ok r ∧ c = ⟨r.subjects, r.gadgets⟩)
      (premises.zipIdx number) compiled := by
  induction premises generalizing number warnings compiled with
  | nil =>
    cases h
    exact .nil
  | cons premise rest ih =>
    rw [compilePremises] at h
    split at h
    case h_1 => cases h
    case h_2 resolved hresolved =>
      obtain ⟨⟨others, warnings⟩, hothers, h⟩ := bind_eq_ok_iff.1 h
      cases h
      exact .cons ⟨resolved, hresolved, rfl⟩ (ih hothers)

variable {request : Request} {c : Compilation}

/-- A compilation that succeeds has compiled the statement and the premises, each under its number,
and has taken out of the statement what a premise proves. -/
theorem compileIn_eq_ok {context : DataContext} {sources : SourceMap}
    (h : request.compileIn context sources = .ok c) :
    ∃ main, (scope context 0).compile .standard request.cap request.statement = .ok main ∧
      List.Forall₂ (fun entry c => ∃ r,
        (scope context entry.2).compile .standard request.cap entry.1 = .ok r ∧
          c = ⟨r.subjects, r.gadgets⟩) (request.premises.zipIdx 1) c.premises ∧
      c.statement = ⟨main.subjects,
        main.gadgets.filter fun g => !c.premises.any fun p => p.proves g⟩ ∧
      c.sources = sources := by
  rw [compileIn] at h
  split at h
  case h_1 => cases h
  case h_2 main hmain =>
    obtain ⟨⟨premises, warnings⟩, hpremises, h⟩ := bind_eq_ok_iff.1 h
    cases h
    exact ⟨main, hmain, compilePremises_eq_ok_zipIdx hpremises, rfl, rfl⟩

theorem compile?_eq_ok (h : request.compile? = some (.ok c)) :
    ∃ ruleSources main,
      (scope { request.context with ruleSources } 0).compile .standard request.cap
        request.statement = .ok main ∧
      List.Forall₂ (fun premise c => ∃ number r,
        (scope { request.context with ruleSources } number).compile .standard request.cap premise =
          .ok r ∧ c.gadgets = r.gadgets) request.premises c.premises ∧
      c.statement.gadgets = main.gadgets.filter fun g => !c.premises.any fun p => p.proves g := by
  obtain ⟨-, h⟩ := compile?_eq_some_iff.1 h
  obtain ⟨main, hmain, hpremises, hstatement, -⟩ := compileIn_eq_ok h
  refine ⟨request.registered.ruleSources, main, hmain, ?_, by rw [hstatement]⟩
  rw [← List.zipIdx_map_fst 1 request.premises]
  refine List.forall₂_map_left_iff.2 (hpremises.imp ?_)
  rintro ⟨premise, number⟩ compiled ⟨r, hr, rfl⟩
  exact ⟨number, r, hr, rfl⟩

/-- The statement and the premises with the rules that apply to them. -/
def parts (request : Request) : List (Option String × Statement) :=
  (request.statement :: request.premises).flatMap request.context.parts

/-- In a compilation that succeeds every part is resolved and its gadgets are optimized. -/
theorem parts_of_compile (h : request.compile? = some (.ok c)) :
    ∃ ruleSources, ∀ part ∈ request.parts, ∃ source resolved gadgets out,
      ((scope { request.context with ruleSources } 0).part source part.1).resolve part.2 =
        .ok resolved ∧
      resolved.gadgets ⊆ gadgets ∧ Optimizer.optimize .standard request.cap gadgets = .ok out := by
  obtain ⟨ruleSources, main, hmain, hpremises, -⟩ := compile?_eq_ok h
  have hcompiled : ∀ statement ∈ request.statement :: request.premises, ∃ number r,
      (scope { request.context with ruleSources } number).compile .standard request.cap statement =
        .ok r := by
    intro statement hst
    rcases List.mem_cons.1 hst with rfl | hst
    · exact ⟨0, main, hmain⟩
    · obtain ⟨compiled, -, number, r, hr, -⟩ := exists_of_forall₂ hpremises hst
      exact ⟨number, r, hr⟩
  refine ⟨ruleSources, fun part hpart => ?_⟩
  obtain ⟨statement, hst, hpart⟩ := List.mem_flatMap.1 hpart
  obtain ⟨number, r, hr⟩ := hcompiled statement hst
  obtain ⟨resolved, hresolved, hr⟩ := bind_eq_ok_iff.1 hr
  obtain ⟨out, hout, -⟩ := bind_eq_ok_iff.1 hr
  obtain ⟨source, part', hpart', hsub⟩ :=
    (Scope.parts_of_resolveWithRules rfl hresolved).1 part hpart
  exact ⟨source, part', resolved.gadgets, out, hpart', hsub, hout⟩

end Request

end Attestation
