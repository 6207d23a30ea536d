import Attestation.Proofs.StatementParts

/-!
# How compiling fails

What is wrong with subjects and operands is put down to a place in the text at once, and it is never
the compiler that is at fault (`Diagnostic.Pinned`). What is wrong with the gadget of a predicate is
found by its contract, and is put down to the predicate if the contract does not say where. So there
are two ways in which a statement is not resolved: `Scope.resolve_eq_error`. A statement fails to
compile if it is not resolved, if a rule of one of its subjects is not, or in the optimizer
(`Scope.compile_eq_error`); a request fails with the error of one of its statements
(`Request.compile?_eq_error`).
-/

namespace Attestation

open Syntax

/-! ## Errors at a place -/

namespace Diagnostic

variable {d : Diagnostic}

/-- An error of the input that points somewhere. -/
structure Pinned (d : Diagnostic) : Prop where
  isInternal : d.isInternal = false
  position : d.position?.isSome = true

theorem isSome_position?_withLabel (position : Position) (message : String) :
    (d.withLabel position message).position?.isSome = true := by
  simp [position?, withLabel]

theorem Pinned.withLabel (h : d.Pinned) (position : Position) (message : String) :
    (d.withLabel position message).Pinned :=
  ⟨h.isInternal, isSome_position?_withLabel position message⟩

theorem Pinned.withNote (h : d.Pinned) (note : String) : (d.withNote note).Pinned :=
  ⟨h.isInternal, h.position⟩

theorem pinned_located {kind : Kind} (h : kind ≠ .internal) (position : Position)
    (message : String) : (located kind position message).Pinned :=
  ⟨decide_eq_false h, isSome_position?_withLabel position ""⟩

end Diagnostic

namespace Scope

variable {scope : Scope} {e : Diagnostic}

theorem isSome_position?_placed (position : Position) (e : Diagnostic) :
    (placed position e).position?.isSome = true := by
  unfold placed
  split
  case h_1 found hfound => simp [hfound]
  case h_2 => exact Diagnostic.isSome_position?_withLabel position _

theorem isInternal_placed (position : Position) (e : Diagnostic) :
    (placed position e).isInternal = e.isInternal := by
  unfold placed
  split <;> rfl

/-! ## Subjects and operands -/

theorem declaredAlias_eq_error {ident : Ident} (h : scope.declaredAlias ident = .error e) :
    e.Pinned := by
  unfold declaredAlias at h
  split_ifs at h
  split at h
  · cases h
  · cases h
    exact (Diagnostic.pinned_located (by simp) _ _).withNote _

theorem subject_eq_error {name : String} {schema : Schema} {visibility : Visibility}
    {position : Position} (h : scope.subject name schema visibility position = .error e) :
    e.Pinned := by
  unfold Scope.subject at h
  cases visibility with
  | witness =>
    dsimp only at h
    split_ifs at h
    cases h
    exact Diagnostic.pinned_located (by simp) _ _
  | disclosed =>
    dsimp only [Subject.disclosed] at h
    split at h
    · cases h
    · cases h
      exact Diagnostic.pinned_located (by simp) _ _

theorem declare_eq_error {subjects : Table Subject} {d : Declaration}
    (h : scope.declare subjects d = .error e) : e.Pinned := by
  rcases bind_eq_error_iff.1 h with hname | ⟨name, -, h⟩
  · exact declaredAlias_eq_error hname
  dsimp only at h
  split at h
  · cases h
    exact (Diagnostic.pinned_located (by simp) _ _).withLabel _ _
  · split at h
    · cases h
      exact Diagnostic.pinned_located (by simp) _ _
    · rcases bind_eq_error_iff.1 h with hsubject | ⟨subject, -, h⟩
      · exact subject_eq_error hsubject
      · cases h

theorem declareAll_eq_error {ds : List Declaration} (h : scope.declareAll ds = .error e) :
    e.Pinned := by
  obtain ⟨subjects, d, -, hd⟩ := foldlM_eq_error h
  exact declare_eq_error hd

theorem resolve_subject_eq_error {subject : Subject} {selector : Selector} {position : Position}
    (h : subject.resolve selector position = .error e) : e.Pinned := by
  unfold Subject.resolve at h
  split_ifs at h
  · cases h
    exact (Diagnostic.pinned_located (by simp) _ _).withLabel _ _
  · split at h
    case h_1 fault _ =>
      cases h
      exact Diagnostic.pinned_located (by cases fault <;> simp [Subject.kindOfFault]) _ _
    case h_2 => cases h

theorem operand_eq_error {subjects : Table Subject} {operand : Operand}
    (h : scope.operand subjects operand = .error e) : e.Pinned := by
  cases operand with
  | identifier name selector span =>
    unfold Scope.operand at h
    dsimp only at h
    split at h
    · cases h
      exact Diagnostic.pinned_located (by simp) _ _
    · exact resolve_subject_eq_error h
  | literal constant span =>
    unfold Scope.operand at h
    dsimp only at h
    split at h
    · cases h
      exact Diagnostic.pinned_located (by simp) _ _
    · cases h

theorem element_eq_error {subjects : Table Subject} {element : Element}
    (h : scope.element subjects element = .error e) : e.Pinned := by
  cases element with
  | single operand => exact operand_eq_error (map_eq_error_iff.1 h)
  | absent => cases h
  | list operands =>
    obtain ⟨operand, -, hoperand⟩ := mapM_eq_error (map_eq_error_iff.1 h)
    exact operand_eq_error hoperand
  | tree t =>
    obtain ⟨operand, -, hoperand⟩ := Tree.mapM_eq_error (map_eq_error_iff.1 h)
    exact operand_eq_error hoperand

theorem fields_eq_error {subjects : Table Subject} {elements : List (String × Element)}
    (h : scope.fields subjects elements = .error e) : e.Pinned := by
  obtain ⟨⟨name, element⟩, -, h⟩ := mapM_eq_error h
  rcases bind_eq_error_iff.1 h with helement | ⟨value, -, h⟩
  · exact element_eq_error helement
  · cases h

/-! ## Predicates and statements -/

/-- An error that the contract of a gadget finds, as it is reported for the predicate. -/
structure Breaches (scope : Scope) (subjects : Table Subject) (p : Predicate) (e : Diagnostic) :
    Prop where
  exists_check : ∃ g breach, Builds (scope.operand subjects) p g ∧ g.check = .error breach ∧
    e = placed (p.span.pin scope.source) breach

/-- **A predicate fails in an operand or by the contract of its gadget.** -/
theorem gadget_eq_error {subjects : Table Subject} {p : Predicate}
    (hreg : scope.registry = .standard) (h : scope.gadget subjects p = .error e) :
    e.Pinned ∨ scope.Breaches subjects p e := by
  unfold gadget at h
  rw [hreg, find?_standard] at h
  rcases bind_eq_error_iff.1 h with hfields | ⟨table, htable, h⟩
  · exact .inl (fields_eq_error hfields)
  obtain ⟨breach, hconstruct, rfl⟩ := mapError_eq_error_iff.1 h
  rcases ofFields_cases htable (p.span.pin scope.source) with ⟨g, hg, hbuilds⟩ | ⟨message, hg⟩
  · right
    rcases bind_eq_error_iff.1 hconstruct with hnone | ⟨g', hg', h⟩
    · cases hg.symm.trans hnone
    · cases hg.symm.trans hg'
      rcases bind_eq_error_iff.1 h with hcheck | ⟨_, -, h⟩
      · exact ⟨g, breach, hbuilds, hcheck, rfl⟩
      · cases h
  · left
    rcases bind_eq_error_iff.1 hconstruct with hempty | ⟨g', hg', -⟩
    · cases hg.symm.trans hempty
      exact Diagnostic.pinned_located (by simp) _ message
    · cases hg.symm.trans hg'

/-- **A statement is not resolved because of a subject, an operand or the contract of a gadget.** -/
theorem resolve_eq_error {statement : Statement} (hreg : scope.registry = .standard)
    (h : scope.resolve statement = .error e) :
    e.Pinned ∨ ∃ subjects p, List.Forall₂ scope.Declares statement.subjects subjects ∧
      p ∈ statement.predicates ∧ scope.Breaches subjects p e := by
  rw [resolve_eq] at h
  rcases bind_eq_error_iff.1 h with hsubjects | ⟨subjects, hsubjects, h⟩
  · exact .inl (declareAll_eq_error hsubjects)
  rcases bind_eq_error_iff.1 h with hgadgets | ⟨gadgets, -, h⟩
  · obtain ⟨p, hp, hgadget⟩ := mapM_eq_error hgadgets
    refine (gadget_eq_error hreg hgadget).imp_right fun hbreaches => ?_
    exact ⟨subjects, p, declareAll_eq_ok hsubjects, hp, hbreaches⟩
  · cases h

theorem isSome_position?_of_resolve {statement : Statement} (hreg : scope.registry = .standard)
    (h : scope.resolve statement = .error e) : e.position?.isSome = true := by
  rcases resolve_eq_error hreg h with hpinned | ⟨subjects, p, -, -, ⟨g, breach, -, -, rfl⟩⟩
  · exact hpinned.position
  · exact isSome_position?_placed _ breach

/-- The rule of a subject fails because it was not registered, or because it is not resolved. -/
theorem ruleOf_eq_error {subject : Subject} (h : scope.ruleOf subject = .error e) :
    (∃ message, e = .internal message) ∧ subject.visibility = .witness ∧
        subject.schema.rule.isSome = true ∧ scope.context.ruleSource? subject.schema = none ∨
      ∃ source rule, (scope.nested source subject.name).resolve rule = .error e := by
  unfold ruleOf at h
  split at h
  case h_1 rule hvisibility hrule =>
    split at h
    case h_1 hsource =>
      cases h
      exact .inl ⟨⟨_, rfl⟩, hvisibility, by simp [hrule], hsource⟩
    case h_2 source hsource =>
      rcases bind_eq_error_iff.1 h with hresolve | ⟨resolved, -, h⟩
      · exact .inr ⟨source, rule, hresolve⟩
      · cases h
  case h_2 => cases h

theorem resolveWithRules_eq_error {statement : Statement}
    (h : scope.resolveWithRules statement = .error e) :
    scope.resolve statement = .error e ∨ ∃ main, scope.resolve statement = .ok main ∧
      ∃ entry ∈ main.subjects, scope.ruleOf entry.2 = .error e := by
  rcases bind_eq_error_iff.1 h with hmain | ⟨main, hmain, h⟩
  · exact .inl hmain
  rcases bind_eq_error_iff.1 h with hrules | ⟨rules, -, h⟩
  · obtain ⟨entry, hentry, hrule⟩ := mapM_eq_error hrules
    exact .inr ⟨main, hmain, entry, hentry, hrule⟩
  · cases h

/-- **A statement fails to compile in resolving it, in the rule of a subject that it keeps or in the
optimizer.** -/
theorem compile_eq_error {rules : RuleSet} {cap : Nat} {statement : Statement}
    (h : scope.compile rules cap statement = .error e) :
    scope.resolveWithRules statement = .error e ∨ ∃ resolved,
      scope.resolveWithRules statement = .ok resolved ∧
        Optimizer.optimize rules cap resolved.gadgets = .error e := by
  rcases bind_eq_error_iff.1 h with hresolved | ⟨resolved, hresolved, h⟩
  · exact .inl hresolved
  rcases bind_eq_error_iff.1 h with hgadgets | ⟨gadgets, -, h⟩
  · exact .inr ⟨resolved, hresolved, hgadgets⟩
  · cases h

end Scope

/-! ## Requests -/

namespace Request

/-- The first premise that does not compile ends the compilation. The warnings of the premises
before it are kept. -/
theorem compilePremises_eq_error {context : DataContext} {sources : SourceMap} {cap number : Nat}
    {warnings : List Diagnostic} {premises : List Statement} {failure : Failure}
    (h : compilePremises context sources cap number warnings premises = .error failure) :
    ∃ before premise after results, premises = before ++ premise :: after ∧
      List.Forall₂ (fun entry r => (scope context entry.2).compile .standard cap entry.1 = .ok r)
        (before.zipIdx number) results ∧
      (scope context (number + before.length)).compile .standard cap premise =
        .error failure.error ∧
      failure.warnings = warnings ++ results.flatMap (·.warnings) := by
  induction premises generalizing number warnings with
  | nil => cases h
  | cons premise rest ih =>
    rw [compilePremises] at h
    split at h
    case h_1 error herror =>
      cases h
      exact ⟨[], premise, rest, [], rfl, .nil, herror, (List.append_nil _).symm⟩
    case h_2 resolved hresolved =>
      rcases bind_eq_error_iff.1 h with hrest | ⟨others, -, h⟩
      · obtain ⟨before, failing, after, results, rfl, hbefore, hfailing, hwarnings⟩ := ih hrest
        refine ⟨premise :: before, failing, after, resolved :: results, rfl, ?_, ?_, ?_⟩
        · rw [List.zipIdx_cons]
          exact .cons hresolved hbefore
        · rw [List.length_cons, ← Nat.add_assoc, Nat.add_right_comm]
          exact hfailing
        · rw [hwarnings, List.flatMap_cons, List.append_assoc]
      · cases h

/-- **A request fails with the error of the first of its statements that does not compile.** What is
kept are the warnings of the statements before it. -/
theorem compile?_eq_error {request : Request} {failure : Failure}
    (h : request.compile? = some (.error failure)) :
    ∃ before statement after results,
      request.statement :: request.premises = before ++ statement :: after ∧
      List.Forall₂ (fun entry r =>
        (scope request.registered entry.2).compile .standard request.cap entry.1 = .ok r)
          before.zipIdx results ∧
      (scope request.registered before.length).compile .standard request.cap statement =
        .error failure.error ∧
      failure.warnings = results.flatMap (·.warnings) := by
  obtain ⟨-, h⟩ := compile?_eq_some_iff.1 h
  rw [compileIn] at h
  split at h
  case h_1 error herror =>
    cases h
    exact ⟨[], request.statement, request.premises, [], rfl, .nil, herror, rfl⟩
  case h_2 main hmain =>
    rcases bind_eq_error_iff.1 h with hpremises | ⟨premises, -, h⟩
    · obtain ⟨before, premise, after, results, hsplit, hbefore, hpremise, hwarnings⟩ :=
        compilePremises_eq_error hpremises
      refine ⟨request.statement :: before, premise, after, main :: results, by rw [hsplit]; rfl, ?_,
        ?_, hwarnings⟩
      · rw [List.zipIdx_cons]
        exact .cons hmain hbefore
      · rw [List.length_cons, Nat.add_comm]
        exact hpremise
    · cases h

end Request

end Attestation
