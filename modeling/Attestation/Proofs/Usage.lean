import Attestation.Proofs.Faithfulness

/-!
# Which subjects a statement uses

A statement uses the subjects that its operands refer to, in whatever place of a predicate they
stand (`Syntax.Statement.mentions`). Resolving a statement keeps the subjects that it uses, in order
of declaration (`Scope.keys_of_resolve`), and warns about each of the others
(`Scope.warnings_of_resolve`). What is compiled comes with these warnings, and behind them those of
the rules that apply to it (`Scope.usage_of_compile`).
-/

namespace Attestation

open Syntax

/-! ## Warnings, as read off the statement -/

namespace Syntax

/-- The warning for a subject that is not used in a statement, or in the rule about a subject. -/
def Declaration.unusedWarning (about : Option String) (source : Nat) (d : Declaration) :
    Diagnostic :=
  .warning .unusedSubject (d.subject.span.pin source)
    s!"Subject `{standsFor about d.subject.name}` is declared but never used."

/-- The warnings for all subjects that are not used, in order of declaration. The subject that a
rule is about need not be used. -/
def Statement.unusedWarnings (about : Option String) (source : Nat) (statement : Statement) :
    List Diagnostic :=
  (statement.subjects.filter fun d =>
    standsFor about d.subject.name ∉ statement.mentions.map (standsFor about) ∧
      about ≠ some (standsFor about d.subject.name)).map (Declaration.unusedWarning about source)

end Syntax

/-- The rules that are applied to a statement, each with the subject it is about and the number of
its source. -/
def DataContext.appliedRules (context : DataContext) (statement : Statement) :
    List (String × Nat × Statement) :=
  statement.subjects.filterMap fun d =>
    if d.visibility = .witness ∧ d.subject.name ∈ statement.mentions then do
      let schema ← context.schema? d.schema.name
      let rule ← schema.rule
      let source ← context.ruleSource? schema
      return (d.subject.name, source, rule)
    else none

theorem map_eq_of_forall₂ {α β γ : Type} {R : α → β → Prop} {f : α → γ} {g : β → γ} {l : List α}
    {l' : List β} (h : List.Forall₂ R l l') (hfg : ∀ a b, R a b → f a = g b) :
    l.map f = l'.map g := by
  induction h with
  | nil => rfl
  | cons hab _ ih => rw [List.map_cons, List.map_cons, hfg _ _ hab, ih]

theorem filterMap_eq_of_forall₂ {α β γ : Type} {R : α → β → Prop} {f : α → Option γ}
    {g : β → Option γ} {l : List α} {l' : List β} (h : List.Forall₂ R l l')
    (hfg : ∀ a b, R a b → f a = g b) : l.filterMap f = l'.filterMap g := by
  have hmap := congrArg (List.filterMap id) (map_eq_of_forall₂ h hfg)
  rwa [List.filterMap_map, List.filterMap_map] at hmap

theorem flatMap_eq_of_forall₂ {α β γ : Type} {R : α → β → Prop} {f : α → List γ}
    {g : β → List γ} {l : List α} {l' : List β} (h : List.Forall₂ R l l')
    (hfg : ∀ a b, R a b → f a = g b) : l.flatMap f = l'.flatMap g := by
  rw [List.flatMap_def, List.flatMap_def, map_eq_of_forall₂ h hfg]

namespace Scope

variable {scope : Scope} {statement : Statement} {r : Resolved}

/-! ## Single statements -/

theorem position_of_subject {name : String} {schema : Schema} {visibility : Visibility}
    {position : Position} {subject : Subject}
    (h : scope.subject name schema visibility position = .ok subject) :
    subject.position = position := by
  unfold Scope.subject at h
  cases visibility with
  | witness =>
    dsimp only at h
    split_ifs at h
    cases h
    rfl
  | disclosed =>
    unfold Subject.disclosed at h
    dsimp only at h
    split at h
    · cases h
      rfl
    · cases h

/-- What resolving a statement keeps of its subjects and what it warns about, entry by entry. -/
theorem collect_of_resolve (h : scope.resolve statement = .ok r) :
    ∃ subjects, List.Forall₂ scope.Declares statement.subjects subjects ∧
      r = scope.collect statement subjects r.gadgets := by
  rw [resolve_eq] at h
  obtain ⟨subjects, hsubjects, h⟩ := bind_eq_ok_iff.1 h
  obtain ⟨gadgets, -, h⟩ := bind_eq_ok_iff.1 h
  cases h
  exact ⟨subjects, declareAll_eq_ok hsubjects, rfl⟩

theorem Declares.key_eq {d : Declaration} {entry : String × Subject} (h : scope.Declares d entry) :
    standsFor scope.parent d.subject.name = entry.1 :=
  declaredAlias_eq_ok h.declaredAlias

theorem Declares.unusedWarning?_eq {d : Declaration} {entry : String × Subject}
    (h : scope.Declares d entry) : scope.unusedWarning? entry.1 entry.2 =
      if scope.parent = some entry.1 then none
      else some (d.unusedWarning scope.parent scope.source) := by
  obtain ⟨schema, -, hsubject⟩ := h.exists_schema
  rw [unusedWarning?, position_of_subject hsubject, Declaration.unusedWarning, h.key_eq]

/-- **The subjects that are used are kept**, in order of declaration. -/
theorem keys_of_resolve (h : scope.resolve statement = .ok r) :
    r.subjects.keys =
      (statement.subjects.map fun d => standsFor scope.parent d.subject.name).filter
        fun name => name ∈ statement.mentions.map (standsFor scope.parent) := by
  obtain ⟨subjects, hdeclares, hr⟩ := collect_of_resolve h
  have hkeys : (statement.subjects.map fun d => standsFor scope.parent d.subject.name) =
      Table.keys subjects := map_eq_of_forall₂ hdeclares fun d entry hd => hd.key_eq
  rw [hr, hkeys, ← usedAliases_eq_map, Table.keys, Table.keys, List.filter_map]
  simp only [collect, List.contains_eq_mem]
  rfl

/-- **There is a warning for each of the others**, in order of declaration. -/
theorem warnings_of_resolve (h : scope.resolve statement = .ok r) :
    r.warnings = statement.unusedWarnings scope.parent scope.source := by
  obtain ⟨subjects, hdeclares, hr⟩ := collect_of_resolve h
  rw [hr, Statement.unusedWarnings, collect, ← usedAliases_eq_map, List.filterMap_filter,
    ← List.filterMap_eq_map, List.filterMap_filter]
  refine (filterMap_eq_of_forall₂ hdeclares fun d entry hd => ?_).symm
  rw [hd.unusedWarning?_eq, hd.key_eq, List.contains_eq_mem]
  by_cases hused : entry.1 ∈ scope.usedAliases statement.predicates <;>
    by_cases hparent : scope.parent = some entry.1 <;> simp [hused, hparent]

/-! ## Rules -/

/-- The rule that is applied to a subject, with the subject's alias and the number of its source. -/
def appliedRule? (scope : Scope) (subject : Subject) : Option (String × Nat × Statement) :=
  if subject.visibility = .witness then do
    let rule ← subject.schema.rule
    let source ← scope.context.ruleSource? subject.schema
    return (subject.name, source, rule)
  else none

/-- The warnings of a rule are those for the subjects that it does not use. -/
theorem warnings_of_ruleOf {subject : Subject} {result : List Gadget × List Diagnostic}
    (h : scope.ruleOf subject = .ok result) :
    result.2 = (scope.appliedRule? subject).toList.flatMap
      fun (name, source, rule) => rule.unusedWarnings (some name) source := by
  unfold ruleOf at h
  split at h
  case h_1 rule hvisibility hrule =>
    split at h
    case h_1 => cases h
    case h_2 source hsource =>
      obtain ⟨resolved, hresolved, h⟩ := bind_eq_ok_iff.1 h
      cases h
      have hwarnings := warnings_of_resolve hresolved
      change resolved.warnings = rule.unusedWarnings (some subject.name) source at hwarnings
      simpa [appliedRule?, hvisibility, hrule, hsource] using hwarnings
  case h_2 hnone =>
    cases h
    have happlied : scope.appliedRule? subject = none := by
      unfold appliedRule?
      split_ifs with hvisibility
      · cases hrule : subject.schema.rule with
        | none => rfl
        | some rule => exact absurd hrule (hnone rule hvisibility)
      · rfl
    rw [happlied]
    rfl

/-- The rules that are applied are those of the subjects that are kept. -/
theorem appliedRules_eq (htop : scope.parent = none) (h : scope.resolve statement = .ok r) :
    scope.context.appliedRules statement =
      r.subjects.filterMap fun entry => scope.appliedRule? entry.2 := by
  obtain ⟨subjects, hdeclares, hr⟩ := collect_of_resolve h
  rw [hr, DataContext.appliedRules, collect, List.filterMap_filter]
  refine filterMap_eq_of_forall₂ hdeclares fun d entry hd => ?_
  obtain ⟨schema, hschema, hbinds⟩ := hd.binds
  have hkey := hd.key_eq
  rw [htop] at hkey
  have hname : d.subject.name = entry.1 := hkey
  have hmentions : (scope.usedAliases statement.predicates).contains entry.1 =
      decide (d.subject.name ∈ statement.mentions) := by
    rw [usedAliases_eq_mentions htop, List.contains_eq_mem, hname]
  rw [hmentions, appliedRule?, hbinds.visibility_eq, hbinds.schema_eq, hbinds.name_eq, hschema,
    ← hname]
  by_cases hwitness : d.visibility = .witness <;>
    by_cases hused : d.subject.name ∈ statement.mentions <;> simp [hwitness, hused]

/-! ## Statements with their rules -/

theorem rules_of_compile {rules : RuleSet} {cap : Nat}
    (h : scope.compile rules cap statement = .ok r) :
    ∃ main results, scope.resolve statement = .ok main ∧
      List.Forall₂ (fun entry result => scope.ruleOf entry.2 = .ok result) main.subjects results ∧
      r.subjects = main.subjects ∧ r.warnings = main.warnings ++ results.flatMap (·.2) := by
  obtain ⟨resolved, hresolved, h⟩ := bind_eq_ok_iff.1 h
  obtain ⟨gadgets, -, h⟩ := bind_eq_ok_iff.1 h
  obtain ⟨main, hmain, hresolved⟩ := bind_eq_ok_iff.1 hresolved
  obtain ⟨results, hresults, hresolved⟩ := bind_eq_ok_iff.1 hresolved
  cases hresolved
  cases h
  exact ⟨main, results, hmain, mapM_eq_ok_iff.1 hresults, rfl, rfl⟩

theorem warnings_of_rules {results : List (List Gadget × List Diagnostic)}
    (htop : scope.parent = none) (h : scope.resolve statement = .ok r)
    (hresults : List.Forall₂ (fun entry result => scope.ruleOf entry.2 = .ok result) r.subjects
      results) :
    results.flatMap (·.2) = (scope.context.appliedRules statement).flatMap
      fun (name, source, rule) => rule.unusedWarnings (some name) source := by
  rw [appliedRules_eq htop h, List.filterMap_eq_flatMap_toList, List.flatMap_assoc]
  refine (flatMap_eq_of_forall₂ hresults fun entry result hresult => ?_).symm
  exact (warnings_of_ruleOf hresult).symm

/-- **Which subjects are used is found exactly.** What is compiled has the subjects that its
operands refer to, in order of declaration and each under an alias of its own. There is a warning
for each of the others, and then those for the subjects that its rules do not use. -/
theorem usage_of_compile (htop : scope.parent = none) {rules : RuleSet} {cap : Nat}
    (h : scope.compile rules cap statement = .ok r) :
    (r.subjects.keys = (statement.subjects.map fun d => d.subject.name).filter
      fun name => name ∈ statement.mentions) ∧
    r.subjects.keys.Nodup ∧
    r.warnings =
      ((statement.subjects.filter fun d => d.subject.name ∉ statement.mentions).map fun d =>
        Diagnostic.warning .unusedSubject (d.subject.span.pin scope.source)
          s!"Subject `{d.subject.name}` is declared but never used.") ++
      (scope.context.appliedRules statement).flatMap
        fun (name, source, rule) => rule.unusedWarnings (some name) source := by
  obtain ⟨main, results, hmain, hresults, hsubjects, hwarnings⟩ := rules_of_compile h
  have hrules := warnings_of_rules htop hmain hresults
  have hstands : statement.mentions.map (standsFor none) = statement.mentions := List.map_id _
  have hkeys := keys_of_resolve hmain
  have hunused := warnings_of_resolve hmain
  rw [htop, hstands] at hkeys
  rw [htop, Statement.unusedWarnings, hstands] at hunused
  refine ⟨hsubjects ▸ hkeys, hsubjects ▸ nodup_keys_of_resolve hmain, ?_⟩
  rw [hwarnings, hunused, hrules]
  simp only [ne_eq, reduceCtorEq, not_false_eq_true, and_true]
  rfl

open Request (noSpan fieldOf string memberSchema)

/-- A party where guests have to be from the city of the host, or from Basel. Nobody asks about Bob,
and the rule about guests asks about nobody, not even about the club it declares. -/
def party : Statement where
  source := "party"
  text := ""
  subjects :=
    [⟨⟨"alice", ⟨0, 5, 1⟩⟩, ⟨"guest", noSpan⟩, .witness⟩,
      ⟨⟨"bob", ⟨6, 9, 1⟩⟩, ⟨"guest", noSpan⟩, .witness⟩,
      ⟨⟨"host", ⟨10, 14, 1⟩⟩, ⟨"guest", noSpan⟩, .disclosed⟩]
  predicates :=
    [.membership (fieldOf "alice" "city") [fieldOf "host" "city", string "Basel"] noSpan]

@[inherit_doc party]
def partyRule : Statement where
  source := "guest"
  text := ""
  subjects :=
    [⟨⟨"private", ⟨0, 7, 1⟩⟩, ⟨"guest", noSpan⟩, .witness⟩,
      ⟨⟨"club", ⟨8, 12, 1⟩⟩, ⟨"guest", noSpan⟩, .witness⟩]
  predicates := []

@[inherit_doc party]
def partyScope : Scope where
  context :=
    { schemas := [("guest", { memberSchema with rule := some partyRule })]
      witness := []
      disclosed := [("host", .document (.object [("city", .string "Bern")]))]
      ruleSources := [(memberSchema.name, 1)] }
  registry := .standard
  source := 0
  parent := none

theorem usage_of_compile_party :
    partyScope.parent = none ∧ ∃ r, partyScope.compile .standard 10 party = .ok r ∧
      r.subjects.keys = ["alice", "host"] ∧
      r.warnings =
        [.warning .unusedSubject ⟨0, ⟨6, 9, 1⟩⟩ "Subject `bob` is declared but never used.",
          .warning .unusedSubject ⟨1, ⟨8, 12, 1⟩⟩
            "Subject `club` is declared but never used."] := by
  have hsome : ((partyScope.compile .standard 10 party).toOption).isSome = true := by decide +kernel
  obtain ⟨r, hr⟩ := Option.isSome_iff_exists.1 hsome
  have hcompile := toOption_eq_some_iff.1 hr
  obtain ⟨hkeys, -, hwarnings⟩ := usage_of_compile (by rfl) hcompile
  exact ⟨rfl, r, hcompile, hkeys.trans (by decide), hwarnings.trans (by decide +kernel)⟩

end Scope

end Attestation
