import Attestation.Proofs.PremiseIsolation
import Attestation.Proofs.Usage

/-!
# The warnings of a failed compilation

A compilation that fails keeps warnings. They are those of the statements that were compiled before
the error, in order, each with the warnings of the rules that were applied to it
(`Request.warnings_of_failure`). The statement that is to blame contributes nothing: where its
subjects and predicates were resolved, and only a rule or the optimizer failed, the warnings for the
subjects that it does not use had been collected already, and they are lost. So they are there
exactly if there are none.
-/

namespace Attestation

open Syntax

theorem Syntax.Statement.unusedWarnings_eq_nil_iff {statement : Statement} {number : Nat} :
    statement.unusedWarnings none number = [] ↔
      ∀ d ∈ statement.subjects, d.subject.name ∈ statement.mentions := by
  have hstands : statement.mentions.map (standsFor none) = statement.mentions := List.map_id _
  rw [Statement.unusedWarnings, List.map_eq_nil_iff, List.filter_eq_nil_iff, hstands]
  simp [standsFor]

/-- The warnings of a statement that compiles: those for the subjects that it does not use, then
those for the subjects that the rules applied to it do not use. -/
def DataContext.warnings (context : DataContext) (number : Nat) (statement : Statement) :
    List Diagnostic :=
  statement.unusedWarnings none number ++ (context.appliedRules statement).flatMap
    fun (name, source, rule) => rule.unusedWarnings (some name) source

theorem Scope.warnings_of_compile {scope : Scope} (htop : scope.parent = none) {rules : RuleSet}
    {cap : Nat} {statement : Statement} {r : Resolved}
    (h : scope.compile rules cap statement = .ok r) :
    r.warnings = scope.context.warnings scope.source statement := by
  obtain ⟨main, results, hmain, hresults, -, hwarnings⟩ := rules_of_compile h
  rw [hwarnings, warnings_of_resolve hmain, htop, warnings_of_rules htop hmain hresults]
  rfl

namespace Request

/-- The warnings of the first statements of a request, in order. -/
def warningsOf (request : Request) (statements : List Statement) : List Diagnostic :=
  statements.zipIdx.flatMap fun entry => request.registered.warnings entry.2 entry.1

/-- **A failed compilation keeps the warnings of the statements before the one to blame**, with
those of their rules, and nothing else. Where the statement to blame was resolved, the warnings for
the subjects that it does not use are kept only if it uses them all. -/
theorem warnings_of_failure {request : Request} {failure : Failure}
    (h : request.compile? = some (.error failure)) :
    ∃ before statement after, request.statement :: request.premises = before ++ statement :: after ∧
      (∀ entry ∈ before.zipIdx, ∃ r,
        (scope request.registered entry.2).compile .standard request.cap entry.1 = .ok r) ∧
      (scope request.registered before.length).compile .standard request.cap statement =
        .error failure.error ∧
      failure.warnings = request.warningsOf before ∧
      ∀ main, (scope request.registered before.length).resolve statement = .ok main →
        main.warnings = statement.unusedWarnings none before.length ∧
        (failure.warnings = request.warningsOf before ++ main.warnings ↔
          ∀ d ∈ statement.subjects, d.subject.name ∈ statement.mentions) := by
  obtain ⟨before, statement, after, results, hsplit, hbefore, hfailing, hwarnings⟩ :=
    compile?_eq_error h
  have hkept : failure.warnings = request.warningsOf before := by
    rw [hwarnings, warningsOf]
    refine (flatMap_eq_of_forall₂ hbefore fun entry r hr => ?_).symm
    exact (Scope.warnings_of_compile rfl hr).symm
  refine ⟨before, statement, after, hsplit, fun entry hentry => ?_, hfailing, hkept,
    fun main hmain => ?_⟩
  · obtain ⟨r, -, hr⟩ := exists_of_forall₂ hbefore hentry
    exact ⟨r, hr⟩
  · have hunused := Scope.warnings_of_resolve hmain
    change main.warnings = statement.unusedWarnings none before.length at hunused
    rw [hunused, hkept, List.self_eq_append_right, Statement.unusedWarnings_eq_nil_iff]
    exact ⟨rfl, Iff.rfl⟩

/-- Alice is invited together with a guest, about whom nothing is to be shown. -/
def invitation (guest : String) (predicates : List Predicate) : Statement where
  source := guest
  text := ""
  subjects :=
    [⟨⟨"alice", noSpan⟩, ⟨"member", noSpan⟩, .witness⟩,
      ⟨⟨guest, noSpan⟩, ⟨"member", noSpan⟩, .witness⟩]
  predicates

/-- Alice is invited with Bob if she is young. Her invitation with Carol, which is said to be proven
already, asks for her to be both young and old. -/
def invitations : Request where
  name := "invitations"
  statement := invitation "bob" [.bounds (fieldOf "alice" "age") none (some (number 20)) noSpan]
  premises :=
    [invitation "carol"
      [.bounds (fieldOf "alice" "age") none (some (number 20)) noSpan,
        .bounds (fieldOf "alice" "age") (some (number 30)) none noSpan]]
  schemas := [("member", { memberSchema with rule := none })]
  witness := []
  disclosed := []
  cap := 10

theorem warnings_of_failure_invitations :
    ∃ failure before statement after, invitations.compile? = some (.error failure) ∧
      invitations.statement :: invitations.premises = before ++ statement :: after ∧
      before ≠ [] ∧ failure.warnings ≠ [] ∧ failure.warnings = invitations.warningsOf before := by
  have hfails : ∃ failure ∈ invitations.failure?, failure.warnings ≠ [] := by
    decide +kernel
  obtain ⟨failure, hfailure, hsome⟩ := hfails
  rw [Option.mem_def, failure?_eq_some_iff] at hfailure
  obtain ⟨before, statement, after, hsplit, -, -, hwarnings, -⟩ := warnings_of_failure hfailure
  refine ⟨failure, before, statement, after, hfailure, hsplit, ?_, hsome, hwarnings⟩
  rintro rfl
  exact hsome hwarnings

/-- **The warning for a guest can be lost**: Carol's invitation was resolved before it failed. -/
theorem unusedWarning_lost :
    ∃ failure main, invitations.compile? = some (.error failure) ∧
      (scope invitations.registered 1).resolve (invitations.premises.head (by decide)) = .ok main ∧
      failure.warnings = [.warning .unusedSubject ⟨0, noSpan⟩
        "Subject `bob` is declared but never used."] ∧
      main.warnings = [.warning .unusedSubject ⟨1, noSpan⟩
        "Subject `carol` is declared but never used."] := by
  have hfails : ∃ failure ∈ invitations.failure?, failure.warnings =
      [.warning .unusedSubject ⟨0, noSpan⟩ "Subject `bob` is declared but never used."] := by
    decide +kernel
  have hresolves : ∃ main ∈ ((scope invitations.registered 1).resolve
      (invitations.premises.head (by decide))).toOption, main.warnings =
      [.warning .unusedSubject ⟨1, noSpan⟩ "Subject `carol` is declared but never used."] := by
    decide +kernel
  obtain ⟨failure, hfailure, hkept⟩ := hfails
  obtain ⟨main, hmain, hunused⟩ := hresolves
  rw [Option.mem_def, failure?_eq_some_iff] at hfailure
  exact ⟨failure, main, hfailure, toOption_eq_some_iff.1 hmain, hkept, hunused⟩

end Request

end Attestation
