import Attestation.Proofs.Faithfulness

/-!
# No field is both secret and disclosed

A witness subject gives no value that the disclosed data for its alias has too, and a disclosed
subject gives only values that this data has. Whether a variable is a witness or disclosed is hence
decided by the field it refers to and the disclosed data alone (`DataContext.Decides`,
`Scope.decides_of_operand`), wherever and under whatever subject it was read: in the statement, in a
rule under a reserved alias, or in a premise. So no field is read as both in one compilation
(`Request.no_exposure_of_compile`).

That both guards look at the same thing rests on what an accessor gives being what it says it has
(`Accessor.contains_of_get`).
-/

namespace Attestation

open Syntax

/-- What relates the items of two lists through others relates the lists through a third. -/
theorem exists_forall₂_of_forall₂ {α β γ : Type} {P : α → β → Prop} {Q : β → γ → Prop} {l : List α}
    {l' : List γ} (h : List.Forall₂ (fun a c => ∃ b, P a b ∧ Q b c) l l') :
    ∃ m, List.Forall₂ P l m ∧ List.Forall₂ Q m l' := by
  induction h with
  | nil => exact ⟨[], .nil, .nil⟩
  | cons h _ ih =>
    obtain ⟨b, hP, hQ⟩ := h
    obtain ⟨m, hPs, hQs⟩ := ih
    exact ⟨b :: m, .cons hP hPs, .cons hQ hQs⟩

/-- What an accessor gives it also says to have. -/
theorem Accessor.contains_of_get {accessor : Accessor} {selector : Selector} {type : DataType}
    {literal : Literal} (h : accessor.get selector type = .ok literal) :
    accessor.contains selector = true := by
  cases accessor with
  | document root =>
    unfold get at h
    dsimp only at h
    split at h
    case h_1 => cases h
    case h_2 entry hentry => simp [contains, hentry]
  | synthetic subject schema =>
    obtain ⟨declared, hdeclared, -⟩ := bind_eq_ok_iff.1 h
    simp [contains, hdeclared, Except.isOk, Except.toBool]

namespace DataContext

/-- Whether the disclosed data has a field of a subject. -/
def discloses (context : DataContext) (name : String) (selector : Selector) : Bool :=
  match context.disclosed.find? name with
  | some data => data.contains selector
  | none => false

/-- A variable that refers to a field is disclosed exactly if the field is. -/
def Decides (context : DataContext) (v : Variable) : Prop :=
  ∀ r, v.reference = some r →
    (v.visibility = .disclosed ↔ context.discloses r.subject r.selector = true)

end DataContext

/-! ## Operands -/

theorem Subject.exposes_of_resolve {subject : Subject} {selector : Selector} {position : Position}
    {v : Variable} (h : subject.resolve selector position = .ok v) :
    subject.exposes selector = false := by
  unfold Subject.resolve at h
  split_ifs at h with hexposes
  exact Bool.eq_false_iff.2 hexposes

namespace Scope

variable {scope : Scope}

/-- The values that a witness subject refuses to give are those that are disclosed. -/
theorem exposes_witness {name : String} {schema : Schema} {position : Position} {subject : Subject}
    (h : scope.subject name schema .witness position = .ok subject) (selector : Selector) :
    subject.exposes selector = scope.context.discloses name selector := by
  unfold Scope.subject at h
  dsimp only at h
  split_ifs at h
  cases h
  rfl

/-- The values that a disclosed subject gives are disclosed. -/
theorem discloses_of_get {name : String} {schema : Schema} {position : Position}
    {subject : Subject} (h : scope.subject name schema .disclosed position = .ok subject)
    {selector : Selector} {type : DataType} {literal : Literal}
    (hget : subject.accessor.get selector type = .ok literal) :
    scope.context.discloses name selector = true := by
  have hdata : scope.context.disclosed.find? name = some subject.accessor :=
    (subject_eq_ok h).accessor_eq
  simp only [DataContext.discloses, hdata]
  exact Accessor.contains_of_get hget

/-- **Whether an operand is a witness is decided by the disclosed data.** -/
theorem decides_of_operand {ds : List Declaration} {subjects : Table Subject}
    (hds : List.Forall₂ scope.Declares ds subjects) {operand : Operand} {v : Variable}
    (h : scope.operand subjects operand = .ok v) : scope.context.Decides v := by
  cases operand with
  | identifier name selector span =>
    unfold Scope.operand at h
    dsimp only at h
    split at h
    case h_1 => cases h
    case h_2 subject hfind =>
      obtain ⟨d, -, ⟨-, schema, -, hsubject⟩⟩ := find?_of_declares hds hfind
      have hexposes := Subject.exposes_of_resolve h
      obtain ⟨type, literal, hlookup, rfl⟩ := Subject.resolve_eq_ok h
      obtain ⟨-, hget⟩ := Subject.lookup_eq_ok_iff.1 hlookup
      have hbinds := subject_eq_ok hsubject
      rintro _ ⟨⟩
      rw [hbinds.name_eq, hbinds.visibility_eq]
      cases hvis : d.visibility with
      | witness =>
        rw [hvis] at hsubject
        rw [← exposes_witness hsubject, hexposes]
        simp
      | disclosed =>
        rw [hvis] at hsubject
        simp [discloses_of_get hsubject hget]
  | literal constant span =>
    unfold Scope.operand at h
    dsimp only at h
    split at h
    case h_1 => cases h
    case h_2 =>
      cases h
      rintro _ ⟨⟩

/-! ## Gadgets -/

/-- What a variable in a context is: an operand that is read there, or a constant. -/
inductive Yields (context : DataContext) (v : Variable) : Prop
  | read (scope : Scope) {ds : List Declaration} {subjects : Table Subject} {operand : Operand}
      (hcontext : scope.context = context) (hds : List.Forall₂ scope.Declares ds subjects)
      (h : scope.operand subjects operand = .ok v)
  | constant (value : Literal) (h : v = .constant value)

theorem Yields.decides {context : DataContext} {v : Variable} (h : Yields context v) :
    context.Decides v := by
  cases h with
  | read scope hcontext hds h => exact hcontext ▸ decides_of_operand hds h
  | constant value h =>
    subst h
    rintro r ⟨⟩

theorem yields_of_resolve {statement : Statement} {r : Resolved}
    (hreg : scope.registry = .standard) (h : scope.resolve statement = .ok r) :
    ∀ g ∈ r.gadgets, ∀ v ∈ g.vars, Yields scope.context v := by
  obtain ⟨subjects, hsubjects, hgadgets⟩ := builds_of_resolve hreg h
  intro g hg v hv
  obtain ⟨p, -, hbuilds, -⟩ := exists_of_forall₂ hgadgets.flip hg
  rcases hbuilds.read_or_constant v hv with ⟨o, -, ho⟩ | ⟨limit, hlimit⟩
  · exact .read scope rfl hsubjects ho
  · exact .constant _ hlimit

/-- A rule is resolved in the context of the statement it applies to. -/
theorem yields_of_resolveWithRules {statement : Statement} {r : Resolved}
    (hreg : scope.registry = .standard) (hparent : scope.parent = none)
    (h : scope.resolveWithRules statement = .ok r) :
    ∀ g ∈ r.gadgets, ∀ v ∈ g.vars, Yields scope.context v := by
  intro g hg
  obtain ⟨part, -, source, resolved, hresolved, hg⟩ := (parts_of_resolveWithRules hparent h).2 g hg
  exact yields_of_resolve ((registry_part ..).trans hreg) hresolved g hg

theorem compile_eq_ok {rules : RuleSet} {cap : Nat} {statement : Statement} {r : Resolved}
    (h : scope.compile rules cap statement = .ok r) :
    ∃ resolved, scope.resolveWithRules statement = .ok resolved ∧
      Optimizer.optimize rules cap resolved.gadgets = .ok r.gadgets := by
  obtain ⟨resolved, hresolved, h⟩ := bind_eq_ok_iff.1 h
  obtain ⟨gadgets, hgadgets, h⟩ := bind_eq_ok_iff.1 h
  cases h
  exact ⟨resolved, hresolved, hgadgets⟩

end Scope

/-! ## Requests -/

namespace Request

/-- The statement and the premises of a request, each resolved with the rules that apply to it, and
nothing optimized yet. -/
def resolutions (request : Request) : Except Diagnostic (List Resolved) :=
  (request.statement :: request.premises).zipIdx.mapM fun (statement, number) =>
    (scope request.registered number).resolveWithRules statement

/-- All variables that a request is resolved to. -/
def resolvedVariables (request : Request) : Except Diagnostic (List Variable) :=
  request.resolutions.map fun resolved => resolved.flatMap fun r => r.gadgets.flatMap Gadget.vars

variable {request : Request} {c : Compilation}

/-- A compilation that succeeds has resolved and optimized the statement and the premises. -/
theorem resolutions_of_compile (h : request.compile? = some (.ok c)) :
    ∃ rs, request.resolutions = .ok rs ∧ List.Forall₂ (fun r compiled =>
      ∃ out, Optimizer.optimize .standard request.cap r.gadgets = .ok out ∧
        compiled.gadgets ⊆ out) rs (c.statement :: c.premises) := by
  obtain ⟨-, h⟩ := compile?_eq_some_iff.1 h
  obtain ⟨main, hmain, hpremises, hstatement, -⟩ := compileIn_eq_ok h
  simp only [resolutions, mapM_eq_ok_iff]
  refine exists_forall₂_of_forall₂ (.cons ?_ (hpremises.imp ?_))
  · obtain ⟨r, hr, hout⟩ := Scope.compile_eq_ok hmain
    rw [hstatement]
    exact ⟨r, hr, main.gadgets, hout, fun g hg => List.mem_of_mem_filter hg⟩
  · rintro entry compiled ⟨resolved, hresolved, rfl⟩
    obtain ⟨r, hr, hout⟩ := Scope.compile_eq_ok hresolved
    exact ⟨r, hr, resolved.gadgets, hout, fun g hg => hg⟩

/-- All variables that a request is resolved to are read in its context, whatever the numbers of the
sources of its rules, or constants. -/
theorem yields_of_resolutions {rs : List Resolved} (h : request.resolutions = .ok rs) :
    ∃ ruleSources, ∀ r ∈ rs, ∀ g ∈ r.gadgets, ∀ v ∈ g.vars,
      Scope.Yields { request.context with ruleSources } v := by
  refine ⟨request.registered.ruleSources, fun r hr => ?_⟩
  obtain ⟨entry, -, hresolved⟩ := exists_of_forall₂ (mapM_eq_ok_iff.1 h).flip hr
  exact Scope.yields_of_resolveWithRules rfl rfl hresolved

/-- All variables of a request are decided by its disclosed data. -/
theorem decides_of_resolvedVariables {vs : List Variable} (h : request.resolvedVariables = .ok vs) :
    ∀ v ∈ vs, request.context.Decides v := by
  obtain ⟨rs, hrs, rfl⟩ := map_eq_ok_iff.1 h
  obtain ⟨ruleSources, hyields⟩ := yields_of_resolutions hrs
  intro v hv
  obtain ⟨r, hr, hv⟩ := List.mem_flatMap.1 hv
  obtain ⟨g, hg, hv⟩ := List.mem_flatMap.1 hv
  exact (hyields r hr g hg v hv).decides

/-- **No field is both secret and disclosed.** If a request compiles, its statement, its premises
and the rules that apply to them are resolved to variables, which are all that its gadgets are
about. No two of them refer to the same field of the same subject, one as a witness and one as
disclosed. -/
theorem no_exposure_of_compile (request : Request) (c : Compilation)
    (h : request.compile? = some (.ok c)) :
    ∃ vs, request.resolvedVariables = .ok vs ∧
      (∀ compiled ∈ c.statement :: c.premises, ∀ g ∈ compiled.gadgets, ∀ v ∈ g.vars, v ∈ vs) ∧
      ¬ ∃ v ∈ vs, ∃ w ∈ vs, ∃ r r', v.reference = some r ∧ w.reference = some r' ∧
        r.subject = r'.subject ∧ r.selector = r'.selector ∧
        v.visibility = .witness ∧ w.visibility = .disclosed := by
  obtain ⟨rs, hrs, hcompiled⟩ := resolutions_of_compile h
  have hvs : request.resolvedVariables = .ok (rs.flatMap fun r => r.gadgets.flatMap Gadget.vars) :=
    map_eq_ok_iff.2 ⟨rs, hrs, rfl⟩
  refine ⟨_, hvs, fun compiled hmem g hg => ?_, ?_⟩
  · obtain ⟨r, hr, out, hout, hsub⟩ := exists_of_forall₂ hcompiled.flip hmem
    refine (KeptByRules.vars _).optimize hout (fun g hg v hv => ?_) g (hsub hg)
    exact List.mem_flatMap.2 ⟨r, hr, List.mem_flatMap.2 ⟨g, hg, hv⟩⟩
  · rintro ⟨v, hv, w, hw, r, r', hr, hr', hsubject, hselector, hwitness, hdisclosed⟩
    have hdecides := decides_of_resolvedVariables hvs w hw r' hr'
    rw [← hsubject, ← hselector] at hdecides
    have hvisibility : v.visibility = .disclosed :=
      (decides_of_resolvedVariables hvs v hv r hr).2 (hdecides.1 hdisclosed)
    rw [hwitness] at hvisibility
    cases hvisibility

/-- A premise about what is known of Alice: her city. In the statement she is a witness of whom the
age is to be shown, and her age is under a rule. -/
def knownCity : Request :=
  { memberRequest (memberData 30 "Bern")
      [.bounds (fieldOf "alice" "age") (some (number 21)) (some (number 150)) noSpan] [] with
    premises := [⟨"alice", "", [⟨⟨"alice", noSpan⟩, ⟨"member", noSpan⟩, .disclosed⟩], cityShown⟩]
    disclosed := [("alice", .document (.object [("city", .string "Bern")]))] }

/-- What it is resolved to: the age, in the statement and in the rule, and the city in the
premise. -/
def knownCityVariables : List Variable :=
  [aliceValue "age" (.integer 30) 0, written (.integer 21) 0, written (.integer 150) 0,
    aliceValue "age" (.integer 30) 2, written (.integer 18) 2,
    .constant (.integer Bounds.greatest),
    { aliceValue "city" (.text "Bern") 1 with visibility := .disclosed },
    written (.text "Bern") 1]

theorem no_exposure_of_compile_knownCity :
    knownCity.resolvedVariables = .ok knownCityVariables ∧ ∃ c, knownCity.compile? = some (.ok c) ∧
      ¬ ∃ v ∈ knownCityVariables, ∃ w ∈ knownCityVariables, ∃ r r',
        v.reference = some r ∧ w.reference = some r' ∧ r.subject = r'.subject ∧
        r.selector = r'.selector ∧ v.visibility = .witness ∧ w.visibility = .disclosed := by
  have hgadgets : knownCity.gadgets? = some [.bounds ⟨aliceValue "age" (.integer 30) 0,
      written (.integer 21) 0, written (.integer 150) 0⟩] := by decide +kernel
  have hvariables : knownCity.resolvedVariables = .ok knownCityVariables := by decide +kernel
  obtain ⟨c, hc, -⟩ := exists_compile_of_gadgets? hgadgets
  obtain ⟨vs, hvs, -, hno⟩ := no_exposure_of_compile knownCity c hc
  obtain rfl := Except.ok.inj (hvs.symm.trans hvariables)
  exact ⟨hvs, c, hc, hno⟩

end Request

end Attestation
