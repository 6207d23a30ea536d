import Attestation.Proofs.Noninterference
import Attestation.Proofs.ResolutionErrors
import Attestation.Proofs.Termination

/-!
# When the compiler is at fault

The compiler blames itself where a predicate and its gadget do not go together, where a bound has no
value and where a rule was not registered. None of this can happen. Arguments fit their gadgets
(`Scope.ofFields_cases`); disclosed data is in documents, which hold no sealed values
(`Scope.known_of_operand`); and every schema that a declaration can name has its rule registered
(`DataContext.isSome_ruleSource?`). So the one internal error that a request can meet is the cap of
the optimizer: `Request.isInternal_iff_of_compile`.
-/

namespace Attestation

open Syntax

variable {e : Diagnostic}

/-! ## Contracts -/

theorem requireDisclosed_eq_error {kind : PredicateKind} {field : String} {v : Variable}
    (h : requireDisclosed kind field v = .error e) : e.isInternal = false := by
  unfold requireDisclosed at h
  split_ifs at h
  cases h
  rfl

theorem requireWitness_eq_error {kind : PredicateKind} {field : String} {v : Variable}
    (h : requireWitness kind field v = .error e) : e.isInternal = false := by
  unfold requireWitness at h
  split_ifs at h
  cases h
  rfl

theorem requireType_eq_error {kind : PredicateKind} {field : String} {v : Variable}
    {expected : DataType} (h : requireType kind field v expected = .error e) :
    e.isInternal = false := by
  unfold requireType at h
  split_ifs at h
  cases h
  rfl

theorem requireSameType_eq_error {kind : PredicateKind} {left right : Variable}
    (h : requireSameType kind left right = .error e) : e.isInternal = false := by
  unfold requireSameType at h
  split_ifs at h
  cases h
  rfl

namespace Bounds

/-- A disclosed integer that is known has a value. -/
theorem checkBound_eq_error {field : String} {bound : Variable}
    (hknown : bound.visibility = .disclosed → bound.literal.isSealed = false)
    (h : checkBound field bound = .error e) : e.isInternal = false := by
  rcases bind_eq_error_iff.1 h with h | ⟨_, hdisclosed, h⟩
  · exact requireDisclosed_eq_error h
  rcases bind_eq_error_iff.1 h with h | ⟨_, htype, h⟩
  · exact requireType_eq_error h
  have hvisibility := requireDisclosed_eq_ok_iff.1 hdisclosed
  have hinteger : ∃ n, bound.integer? = some n := by
    have hunsealed := hknown hvisibility
    have hliteral : bound.literal.type = .integer := requireType_eq_ok_iff.1 htype
    cases hl : bound.literal <;> simp_all [Literal.type, Literal.isSealed]
    exact ⟨_, Variable.integer?_eq_some_iff.2 ⟨hvisibility, hl⟩⟩
  obtain ⟨n, hn⟩ := hinteger
  rw [hn] at h
  dsimp only at h
  split_ifs at h <;> cases h <;> rfl

theorem check_eq_error {g : Bounds}
    (hknown : ∀ v ∈ (Gadget.bounds g).vars,
      v.visibility = .disclosed → v.literal.isSealed = false)
    (h : g.check = .error e) : e.isInternal = false := by
  rcases bind_eq_error_iff.1 h with h | ⟨_, -, h⟩
  · exact requireWitness_eq_error h
  rcases bind_eq_error_iff.1 h with h | ⟨_, -, h⟩
  · exact requireType_eq_error h
  rcases bind_eq_error_iff.1 h with h | ⟨_, -, h⟩
  · exact checkBound_eq_error (hknown g.min (by simp [Gadget.vars])) h
  rcases bind_eq_error_iff.1 h with h | ⟨_, -, h⟩
  · exact checkBound_eq_error (hknown g.max (by simp [Gadget.vars])) h
  split at h
  case h_1 contradiction hempty =>
    cases h
    have hkind := (Contradiction.Finds.empty hempty).kind
    simp [Diagnostic.isInternal, hkind]
  case h_2 => cases h

end Bounds

theorem Membership.checkElements_eq_error {member : Variable} {before rest : List Variable}
    (h : checkElements member before rest = .error e) : e.isInternal = false := by
  induction rest generalizing before with
  | nil => cases h
  | cons element rest ih =>
    rcases bind_eq_error_iff.1 h with h | ⟨_, -, h⟩
    · exact requireDisclosed_eq_error h
    rcases bind_eq_error_iff.1 h with h | ⟨_, -, h⟩
    · exact requireSameType_eq_error h
    split at h
    · cases h
      rfl
    · exact ih h

theorem MerkleTree.checkLeaves_eq_error {position : Nat} {leaves : List Variable}
    (h : checkLeaves position leaves = .error e) : e.isInternal = false := by
  induction leaves generalizing position with
  | nil => cases h
  | cons leaf rest ih =>
    rcases bind_eq_error_iff.1 h with h | ⟨_, -, h⟩
    · exact requireType_eq_error h
    · exact ih h

/-- **A breach of contract is not the compiler's fault**, if disclosed values are known. -/
theorem Gadget.check_eq_error {g : Gadget}
    (hknown : ∀ v ∈ g.vars, v.visibility = .disclosed → v.literal.isSealed = false)
    (h : g.check = .error e) : e.isInternal = false := by
  cases g with
  | equality g => exact requireSameType_eq_error h
  | inequality g => exact requireSameType_eq_error h
  | bounds g => exact Bounds.check_eq_error hknown h
  | membership g => exact Membership.checkElements_eq_error h
  | mimcHash g =>
    rcases bind_eq_error_iff.1 h with h | ⟨_, -, h⟩
    · exact requireWitness_eq_error h
    rcases bind_eq_error_iff.1 h with h | ⟨_, -, h⟩
    · exact requireType_eq_error h
    rcases bind_eq_error_iff.1 h with h | ⟨_, -, h⟩
    · exact requireDisclosed_eq_error h
    · exact requireType_eq_error h
  | merkleTree g =>
    rcases bind_eq_error_iff.1 h with h | ⟨_, -, h⟩
    · exact requireDisclosed_eq_error h
    rcases bind_eq_error_iff.1 h with h | ⟨_, -, h⟩
    · exact requireType_eq_error h
    · exact MerkleTree.checkLeaves_eq_error h

/-! ## Disclosed values -/

theorem Literal.isSealed_ofConstant {constant : Constant} {literal : Literal}
    (h : Literal.ofConstant constant = .ok literal) : literal.isSealed = false := by
  cases constant with
  | hex digits =>
    obtain ⟨data, -, rfl⟩ := map_eq_ok_iff.1 h
    rfl
  | _ => cases h; rfl

/-- Disclosed quantities are known, if disclosed data is in documents. -/
theorem DataContext.isSealed_of_quantity? {context : DataContext}
    (hdocs : Documents context.disclosed) {about : Option String}
    {declarations : List Declaration} {operand : Operand} {q : Identity}
    (h : context.quantity? about declarations operand = some q)
    (hq : q.visibility = .disclosed) : q.literal.isSealed = false := by
  cases operand with
  | identifier name selector span =>
    obtain ⟨⟨visibility, reference⟩, -, h⟩ := Option.bind_eq_some_iff.1 h
    obtain ⟨literal, hheld, rfl⟩ := Option.map_eq_some_iff.1 h
    dsimp only at hq
    subst hq
    obtain ⟨accessor, hfind, hget⟩ := Option.bind_eq_some_iff.1 hheld
    obtain ⟨root, hroot⟩ := hdocs _ (Table.mem_of_find? hfind)
    dsimp only at hroot
    rw [hroot, toOption_eq_some_iff] at hget
    exact (Accessor.get_document hget).2
  | literal constant span =>
    obtain ⟨literal, hliteral, rfl⟩ := Option.map_eq_some_iff.1 h
    exact Literal.isSealed_ofConstant (toOption_eq_some_iff.1 hliteral)

namespace Scope

variable {scope : Scope}

theorem known_of_operand (hdocs : Documents scope.context.disclosed) {ds : List Declaration}
    {subjects : Table Subject} (hds : List.Forall₂ scope.Declares ds subjects) {operand : Operand}
    {v : Variable} (h : scope.operand subjects operand = .ok v)
    (hv : v.visibility = .disclosed) : v.literal.isSealed = false :=
  DataContext.isSealed_of_quantity? hdocs (quantity?_of_operand hds h) hv

/-- **Resolving a statement is never the compiler's fault.** -/
theorem isInternal_of_resolve (hreg : scope.registry = .standard)
    (hdocs : Documents scope.context.disclosed) {statement : Statement}
    (h : scope.resolve statement = .error e) : e.isInternal = false := by
  rcases resolve_eq_error hreg h with hpinned | ⟨subjects, p, hds, -, ⟨g, breach, hbuilds, hcheck, rfl⟩⟩
  · exact hpinned.isInternal
  · rw [isInternal_placed]
    refine Gadget.check_eq_error (fun v hv hdisclosed => ?_) hcheck
    rcases hbuilds.read_or_constant v hv with ⟨o, -, ho⟩ | ⟨limit, rfl⟩
    · exact known_of_operand hdocs hds ho hdisclosed
    · rfl

end Scope

/-! ## Rules -/

namespace DataContext

/-- A context in which rules are registered has the number of every rule. -/
def RulesRegistered (context : DataContext) : Prop :=
  ∀ entry ∈ context.schemas, entry.2.rule.isSome = true →
    (context.ruleSource? entry.2).isSome = true

/-- **Every schema that a declaration can name has its rule registered**, whatever name it is
supplied under: rules go by the name that a schema has for itself, and no schema that is built in
has one. -/
theorem RulesRegistered.isSome_ruleSource? {context : DataContext} (h : context.RulesRegistered)
    {name : String} {schema : Schema} (hschema : context.schema? name = some schema)
    (hrule : schema.rule.isSome = true) : (context.ruleSource? schema).isSome = true :=
  h (name, schema) (mem_schemas_of_schema? hschema hrule) hrule

end DataContext

theorem Request.rulesRegistered_registered (request : Request) :
    request.registered.RulesRegistered := fun entry hentry hrule =>
  DataContext.isSome_find?_numberRules (.inr ⟨entry, hentry, hrule, rfl⟩)

/-! ## Requests -/

/-- A cap that does not suffice is the only internal error of the optimizer. -/
theorem Optimizer.isInternal_iff_of_optimize {rules : RuleSet} {cap : Nat} {gadgets : List Gadget}
    (h : optimize rules cap gadgets = .error e) : e.isInternal = true ↔ e = notConverged cap := by
  rcases optimize_eq_error h with rfl | ⟨t, -, hstep⟩
  · exact ⟨fun _ => rfl, fun _ => rfl⟩
  · obtain ⟨matched, hfinds, -⟩ :=
      RuleSet.contradiction?_eq_some (OptimizerState.step_eq_contradiction hstep)
    have hne : e ≠ notConverged cap := by
      rintro rfl
      cases hfinds.kind
    simp [Diagnostic.isInternal, hfinds.kind, hne]

namespace Request

/-- A statement is resolved with its rules without the compiler being at fault. -/
theorem isInternal_of_resolveWithRules {context : DataContext} (hrules : context.RulesRegistered)
    (hdocs : Documents context.disclosed) {number : Nat} {statement : Statement}
    (h : (scope context number).resolveWithRules statement = .error e) : e.isInternal = false := by
  rcases Scope.resolveWithRules_eq_error h with h | ⟨main, hmain, entry, hentry, hruleOf⟩
  · exact Scope.isInternal_of_resolve rfl hdocs h
  rcases Scope.ruleOf_eq_error hruleOf with ⟨-, -, hrule, hnone⟩ | ⟨source, rule, h⟩
  · -- a subject has a schema that its declaration names
    obtain ⟨d, -, hdec⟩ := Scope.declares_of_mem_subjects hmain hentry
    obtain ⟨schema, hschema, hbinds⟩ := hdec.binds
    rw [hbinds.schema_eq] at hrule hnone
    have hsome := hrules.isSome_ruleSource? hschema hrule
    rw [show context.ruleSource? schema = none from hnone] at hsome
    cases hsome
  · exact Scope.isInternal_of_resolve rfl hdocs h

/-- **No request makes the compiler fail by its own fault**, but for a cap that does not suffice:
disclosed data only has to be in documents. -/
theorem isInternal_iff_of_compile {request : Request} {failure : Failure}
    (hdocs : Documents request.disclosed) (h : request.compile? = some (.error failure)) :
    failure.error.isInternal = true ↔ failure.error = Optimizer.notConverged request.cap := by
  obtain ⟨before, statement, after, -, -, -, herror, -⟩ := compile?_eq_error h
  rcases Scope.compile_eq_error herror with herror | ⟨resolved, -, herror⟩
  · have hinternal :=
      isInternal_of_resolveWithRules request.rulesRegistered_registered hdocs herror
    have hne : failure.error ≠ Optimizer.notConverged request.cap := by
      intro heq
      rw [heq] at hinternal
      cases hinternal
    simp [hinternal, hne]
  · exact Optimizer.isInternal_iff_of_optimize herror

/-- A club goes by another name than its members' schema does, and says itself how old they have to
be. What is to be shown is that Alice is old enough and not older than twenty. -/
def clubRequest (cap : Nat) : Request where
  name := "club"
  statement :=
    { statementAbout "alice" "club"
        [.bounds (fieldOf "alice" "age") (some (fieldOf "limits" "age")) none noSpan,
          .bounds (fieldOf "alice" "age") none (some (number 20)) noSpan] with
      subjects := [⟨⟨"alice", noSpan⟩, ⟨"club", noSpan⟩, .witness⟩,
        ⟨⟨"limits", noSpan⟩, ⟨"club", noSpan⟩, .disclosed⟩] }
  premises := []
  schemas := [("club", { memberSchema with
    rule := some (statementAbout "private" "club" [.equality (fieldOf "private" "city")
      (string "Bern") noSpan]) })]
  witness := memberData 30 "Bern"
  disclosed := [("limits", .document (.object [("age", .string "21")]))]
  cap

theorem isInternal_iff_of_compile_clubRequest :
    ∃ failure failure', (clubRequest 0).compile? = some (.error failure) ∧
      failure.error.isInternal = true ∧ (clubRequest 5).compile? = some (.error failure') ∧
      failure'.error.isInternal = false := by
  have hdocs : Documents (clubRequest 0).disclosed := List.forall_mem_singleton.2 ⟨_, rfl⟩
  have hdocs' : Documents (clubRequest 5).disclosed := List.forall_mem_singleton.2 ⟨_, rfl⟩
  have hcap : ∃ failure ∈ (clubRequest 0).failure?,
      failure.error = Optimizer.notConverged 0 := by decide +kernel
  have hother : ∃ failure ∈ (clubRequest 5).failure?,
      failure.error ≠ Optimizer.notConverged 5 := by decide +kernel
  obtain ⟨failure, hfailure, hcap⟩ := hcap
  obtain ⟨failure', hfailure', hother⟩ := hother
  rw [Option.mem_def, failure?_eq_some_iff] at hfailure hfailure'
  refine ⟨failure, failure', hfailure, ?_, hfailure', ?_⟩
  · exact (isInternal_iff_of_compile hdocs hfailure).2 hcap
  · exact Bool.eq_false_iff.2 fun h => hother ((isInternal_iff_of_compile hdocs' hfailure').1 h)

end Request

end Attestation
