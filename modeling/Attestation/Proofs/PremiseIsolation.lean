import Attestation.Proofs.Faithfulness
import Attestation.Proofs.Rebinding
import Attestation.Proofs.ResolutionErrors

/-!
# Premises in isolation

The statements of a request share sources, schemas and data, and nothing else: each is compiled as
it would be alone. What differs is where positions point. The source of a statement has the number
of the statement, and rules are registered behind the sources of all statements; so positions from
a compilation of one statement alone have to be renumbered (`Request.numbering`). The number of a
source plays no part in what is compiled (`Scope.compile_renumber`), and what all statements come to
together is put together from what they come to alone: `Request.compile_isolated`.

All statements and rules share the room for sources, too. So statements that compile alone may be too
many to compile together: `Request.exists_crowded`.
-/

namespace Attestation

open Syntax

/-! ## Other numbers for sources -/

/-- The renaming that leaves values alone and gives sources other numbers. -/
def Renaming.renumbering (σ : Nat → Nat) : Renaming where
  literal := id
  injective := Function.injective_id
  type_literal _ := rfl
  source := σ

variable (σ : Nat → Nat)

/-- The subject in the source with the new number. -/
def Subject.renumber (subject : Subject) : Subject :=
  { subject with position := subject.position.rename (.renumbering σ) }

/-- The compiled statement with positions in the sources with the new numbers. -/
def Compiled.renumber (c : Compiled) : Compiled where
  subjects := c.subjects.mapValues (Subject.renumber σ)
  gadgets := c.gadgets.map (Gadget.rename (.renumbering σ))

/-- Data matches itself. -/
theorem DataContext.matches_renumbering (context : DataContext) (about : Option String)
    (statement : Statement) :
    context.Matches context.witness (.renumbering σ) about statement := by
  refine ⟨fun _ _ => Iff.rfl, fun r _ => ?_⟩
  change context.fetch r = (context.fetch r).map id
  cases context.fetch r <;> rfl

theorem DataContext.matchesAll_renumbering (context : DataContext) (statement : Statement) :
    context.MatchesAll context.witness (.renumbering σ) statement :=
  fun part _ => context.matches_renumbering σ part.1 part.2

namespace Scope

variable {scope : Scope}

/-- The data of a declared subject is that of the context. -/
theorem Binds.rebind_renumbering {name : String} {schema : Schema} {visibility : Visibility}
    {subject : Subject} (h : scope.Binds name schema visibility subject) :
    subject.rebind scope.context.witness (.renumbering σ) = subject.renumber σ := by
  have haccessor := h.accessor_eq
  cases visibility with
  | witness =>
    simp only [supply?, Option.some.injEq] at haccessor
    simp [Subject.rebind, Subject.renumber, h.visibility_eq, h.name_eq, h.schema_eq, haccessor]
  | disclosed => simp [Subject.rebind, Subject.renumber, h.visibility_eq]

theorem exists_binds_of_compile {rules : RuleSet} {cap : Nat} {statement : Statement}
    {r : Resolved} (h : scope.compile rules cap statement = .ok r) :
    ∀ entry ∈ r.subjects, ∃ schema visibility, scope.Binds entry.1 schema visibility entry.2 := by
  obtain ⟨resolved, hresolved, h⟩ := bind_eq_ok_iff.1 h
  obtain ⟨gadgets, -, h⟩ := bind_eq_ok_iff.1 h
  cases h
  obtain ⟨main, hmain, h⟩ := bind_eq_ok_iff.1 hresolved
  obtain ⟨rules, -, h⟩ := bind_eq_ok_iff.1 h
  cases h
  intro entry hentry
  obtain ⟨d, -, hdeclares⟩ := declares_of_mem_subjects hmain hentry
  obtain ⟨schema, -, hbinds⟩ := hdeclares.binds
  exact ⟨schema, d.visibility, hbinds⟩

variable (scope) in
/-- **The number of a source plays no part in what is compiled**: with other numbers the positions
are others and all else is the same. -/
theorem compile_renumber (hparent : scope.parent = none) (rules : RuleSet) (cap : Nat)
    (statement : Statement) :
    mapBoth id (fun r => Compiled.mk r.subjects r.gadgets)
        ((scope.rebind scope.context.witness (.renumbering σ)).compile rules cap statement) =
      mapBoth (.rename (.renumbering σ)) (fun r => (Compiled.mk r.subjects r.gadgets).renumber σ)
        (scope.compile rules cap statement) := by
  rw [scope.compile_rebind hparent (scope.context.matchesAll_renumbering σ statement) .all
    (fun g _ => g.steady_of_isSealed fun _ => rfl) rules cap fun _ _ _ _ => trivial]
  cases h : scope.compile rules cap statement with
  | error e => rfl
  | ok r =>
    have hsubjects : rebindAll scope.context.witness (.renumbering σ) r.subjects =
        r.subjects.mapValues (Subject.renumber σ) := by
      refine List.map_congr_left fun entry hentry => ?_
      obtain ⟨schema, visibility, hbinds⟩ := exists_binds_of_compile h entry hentry
      rw [hbinds.rebind_renumbering]
    simp [Resolved.rename, Compiled.renumber, hsubjects]

end Scope

/-! ## Statements alone -/

/-- The statement without the gadgets that are the same as a gadget of a premise. -/
def Compiled.without (c : Compiled) (premises : List Compiled) : Compiled :=
  { c with gadgets := c.gadgets.filter fun g =>
      ∀ premise ∈ premises, ∀ other ∈ premise.gadgets, ¬ other.same g }

theorem Compiled.without_eq (c : Compiled) (premises : List Compiled) :
    c.without premises =
      ⟨c.subjects, c.gadgets.filter fun g => !premises.any fun premise => premise.proves g⟩ := by
  refine congrArg (Compiled.mk c.subjects) (List.filter_congr fun g _ => ?_)
  rw [Bool.eq_iff_iff]
  simp [Compiled.proves, GadgetSet.has]

namespace Request

variable (request : Request)

/-- The request to compile one statement alone, with the same schemas and data. -/
def alone (statement : Statement) : Request :=
  { request with statement, premises := [] }

/-- The number that a source from the compilation of a statement alone has in the request. There the
statement comes first; here it has its number among the statements. Rules come behind them. -/
def numbering (number : Nat) : Nat → Nat
  | 0 => number
  | rule + 1 => request.premises.length + 1 + rule

/-- What the statement with a number comes to alone, its positions being those in the request. -/
def isolated? (number : Nat) (statement : Statement) : Option (Except Diagnostic Compiled) :=
  (request.alone statement).compile?.map
    (mapBoth (fun failure => failure.error.rename (.renumbering (request.numbering number)))
      fun c => c.statement.renumber (request.numbering number))

/-- There is room for a statement alone if there is for the request. -/
theorem Fits.alone {request : Request} (h : request.Fits) (statement : Statement) :
    (request.alone statement).Fits := by
  refine Nat.le_trans ?_ h
  simp only [texts, Request.alone, List.length_append, List.length_cons, List.length_nil]
  omega

/-- Rules are registered as they are for a statement alone, with other numbers. -/
theorem registered_eq (number : Nat) (statement : Statement) :
    request.registered = (request.alone statement).registered.rebind request.witness
      (.renumbering (request.numbering number)) := by
  have hnumbers : ∀ k, request.numbering number (0 + 1 + k) = request.premises.length + 1 + k := by
    intro k
    rw [Nat.zero_add, Nat.add_comm 1 k, numbering]
  exact congrArg (DataContext.mk request.schemas request.witness request.disclosed)
    (DataContext.numberRules_mapValues hnumbers request.schemas [])

/-- A renumbered position points into the same source. -/
theorem source?_numbering {number : Nat} {statement : Statement}
    (h : (request.statement :: request.premises)[number]? = some statement) (p : Position) :
    request.sources.source? (p.rename (.renumbering (request.numbering number))) =
      (request.alone statement).sources.source? p := by
  obtain ⟨source, span⟩ := p
  cases source with
  | zero =>
    change request.sources[number]? = some statement.toSource
    rw [getElem?_sources, getElem?_texts_of_statement request h, Option.map_some]
  | succ rule =>
    have hnumber : 0 + 1 + rule = rule + 1 := by omega
    have halone := (request.alone statement).getElem?_texts_rule rule
    rw [show (request.alone statement).premises.length = 0 from rfl, hnumber] at halone
    change request.sources[request.premises.length + 1 + rule]? =
      (request.alone statement).sources[rule + 1]?
    rw [getElem?_sources, getElem?_sources, getElem?_texts_rule, halone]
    rfl

/-- Without premises nothing is taken out. -/
theorem compileIn_of_premises_eq_nil (h : request.premises = []) (context : DataContext)
    (sources : SourceMap) :
    request.compileIn context sources =
      mapBoth (fun e => ⟨e, [], sources⟩)
        (fun r => ⟨⟨r.subjects, r.gadgets⟩, [], r.warnings, sources⟩)
        ((scope context 0).compile .standard request.cap request.statement) := by
  rw [compileIn, h]
  cases (scope context 0).compile .standard request.cap request.statement with
  | error e => rfl
  | ok r => simp [compilePremises, bind, Except.bind, pure, Except.pure]

variable {request}

/-- **A statement is compiled in the request as it is alone.** -/
theorem isolated?_eq (hfits : request.Fits) (number : Nat) (statement : Statement) :
    request.isolated? number statement =
      some (mapBoth id (fun r => ⟨r.subjects, r.gadgets⟩)
        ((scope request.registered number).compile .standard request.cap statement)) := by
  have hrenumber := (scope (request.alone statement).registered 0).compile_renumber
    (request.numbering number) rfl .standard request.cap statement
  -- alone the statement is the first source, so its scope is that with number zero
  have hscope : (scope (request.alone statement).registered 0).rebind request.witness
      (.renumbering (request.numbering number)) = scope request.registered number := by
    rw [request.registered_eq number statement]
    rfl
  rw [show (scope (request.alone statement).registered 0).context.witness = request.witness from
    rfl, hscope] at hrenumber
  rw [isolated?, compile?_eq, if_pos (hfits.alone statement), Option.map_some,
    compileIn_of_premises_eq_nil (request.alone statement) rfl, hrenumber]
  change some (mapBoth _ _ (mapBoth _ _ ((scope (request.alone statement).registered 0).compile
    .standard request.cap statement))) = _
  cases (scope (request.alone statement).registered 0).compile .standard request.cap statement <;>
    rfl

theorem isolated?_eq_ok (hfits : request.Fits) {number : Nat} {statement : Statement} {r : Resolved}
    (h : (scope request.registered number).compile .standard request.cap statement = .ok r) :
    request.isolated? number statement = some (.ok ⟨r.subjects, r.gadgets⟩) := by
  rw [isolated?_eq hfits, h, mapBoth_ok]

theorem exists_compile_alone {number : Nat} {statement : Statement} {compiled : Compiled}
    (h : request.isolated? number statement = some (.ok compiled)) :
    ∃ c, (request.alone statement).compile? = some (.ok c) := by
  obtain ⟨outcome, houtcome, h⟩ := Option.map_eq_some_iff.1 h
  obtain ⟨c, hc, -⟩ := mapBoth_eq_ok_iff.1 h
  exact ⟨c, hc ▸ houtcome⟩

/-- What a compilation that succeeds is put together from. -/
theorem isolated_of_compile {c : Compilation} (h : request.compile? = some (.ok c)) :
    (∃ main, request.isolated? 0 request.statement = some (.ok main) ∧
      c.statement = main.without c.premises) ∧
    List.Forall₂ (fun entry premise => request.isolated? entry.2 entry.1 = some (.ok premise))
      (request.premises.zipIdx 1) c.premises ∧
    c.sources = request.sources := by
  obtain ⟨hfits, h⟩ := compile?_eq_some_iff.1 h
  obtain ⟨main, hmain, hpremises, hstatement, hsources⟩ := compileIn_eq_ok h
  refine ⟨⟨⟨main.subjects, main.gadgets⟩, isolated?_eq_ok hfits hmain, ?_⟩, hpremises.imp ?_,
    hsources⟩
  · rw [hstatement, Compiled.without_eq]
  · rintro entry premise ⟨r, hr, rfl⟩
    exact isolated?_eq_ok hfits hr

/-- The error of a compilation that fails. -/
theorem isolated_of_compile_eq_error {failure : Failure}
    (h : request.compile? = some (.error failure)) :
    ∃ before statement after, request.statement :: request.premises = before ++ statement :: after ∧
      (∀ other ∈ before, ∃ c, (request.alone other).compile? = some (.ok c)) ∧
      request.isolated? before.length statement = some (.error failure.error) := by
  obtain ⟨hfits, -⟩ := compile?_eq_some_iff.1 h
  obtain ⟨before, statement, after, results, hsplit, hbefore, hfailing, -⟩ := compile?_eq_error h
  refine ⟨before, statement, after, hsplit, fun other hother => ?_, ?_⟩
  · rw [← List.zipIdx_map_fst 0 before] at hother
    obtain ⟨entry, hentry, rfl⟩ := List.mem_map.1 hother
    obtain ⟨r, -, hr⟩ := exists_of_forall₂ hbefore hentry
    exact exists_compile_alone (isolated?_eq_ok hfits hr)
  · rw [isolated?_eq hfits, hfailing]
    rfl

/-- A request compiles exactly if there is room for its sources and each of its statements compiles
alone. -/
theorem exists_compile_iff : (∃ c, request.compile? = some (.ok c)) ↔
    request.Fits ∧ ∀ statement ∈ request.statement :: request.premises,
      ∃ c, (request.alone statement).compile? = some (.ok c) := by
  constructor
  · rintro ⟨c, hc⟩
    refine ⟨(compile?_eq_some_iff.1 hc).1, fun statement hstatement => ?_⟩
    obtain ⟨⟨main, hmain, -⟩, hpremises, -⟩ := isolated_of_compile hc
    rcases List.mem_cons.1 hstatement with rfl | hpremise
    · exact exists_compile_alone hmain
    · rw [← List.zipIdx_map_fst 1 request.premises] at hpremise
      obtain ⟨entry, hentry, rfl⟩ := List.mem_map.1 hpremise
      obtain ⟨premise, -, hisolated⟩ := exists_of_forall₂ hpremises hentry
      exact exists_compile_alone hisolated
  · rintro ⟨hfits, hall⟩
    have hcompile := request.compile?_eq
    rw [if_pos hfits] at hcompile
    cases houtcome : request.compileIn request.registered request.sources with
    | ok c => exact ⟨c, houtcome ▸ hcompile⟩
    | error failure =>
      -- the statement that is to blame would not compile alone
      obtain ⟨before, statement, after, hsplit, -, hfailing⟩ :=
        isolated_of_compile_eq_error (houtcome ▸ hcompile)
      obtain ⟨c, hc⟩ := hall statement (by simp [hsplit])
      rw [isolated?, hc] at hfailing
      cases hfailing

variable (request)

/-- **Premises are isolated and do nothing but take gadgets out**, as long as there is room for all
sources. In a compilation that succeeds, every premise is compiled to what it is compiled to alone;
and so is the statement, without the gadgets that are the same as a gadget of a premise. It succeeds
exactly if the sources fit and all these statements compile alone. If it fails, the error is that of
the first of them that does not; there is no outcome exactly if the sources do not fit. Here a
statement compiled alone has its positions renumbered, so that they point into the same sources. -/
theorem compile_isolated :
    (∀ c, request.compile? = some (.ok c) →
      (∃ main, request.isolated? 0 request.statement = some (.ok main) ∧
        c.statement = main.without c.premises) ∧
      List.Forall₂ (fun entry premise => request.isolated? entry.2 entry.1 = some (.ok premise))
        (request.premises.zipIdx 1) c.premises ∧
      c.sources = request.sources) ∧
    ((∃ c, request.compile? = some (.ok c)) ↔
      request.Fits ∧ ∀ statement ∈ request.statement :: request.premises,
        ∃ c, (request.alone statement).compile? = some (.ok c)) ∧
    (∀ failure, request.compile? = some (.error failure) → ∃ before statement after,
      request.statement :: request.premises = before ++ statement :: after ∧
      (∀ other ∈ before, ∃ c, (request.alone other).compile? = some (.ok c)) ∧
      request.isolated? before.length statement = some (.error failure.error)) ∧
    (request.compile? = none ↔ ¬ request.Fits) ∧
    ∀ number statement, (request.statement :: request.premises)[number]? = some statement →
      ∀ p : Position,
        request.sources.source? (p.rename (.renumbering (request.numbering number))) =
          (request.alone statement).sources.source? p := by
  exact ⟨fun c => isolated_of_compile, exists_compile_iff,
    fun failure => isolated_of_compile_eq_error, compile?_eq_none_iff,
    fun number statement => request.source?_numbering⟩

/-- Of a member of age, the premise takes out the city. -/
theorem compile_isolated_adult :
    ∃ c main, adultRequest.compile? = some (.ok c) ∧
      adultRequest.isolated? 0 adultRequest.statement = some (.ok main) ∧
      c.statement = main.without c.premises ∧
      c.statement.gadgets.length = 1 ∧ main.gadgets.length = 2 := by
  have hcompile : ∃ c ∈ adultRequest.compilation?, c.statement.gadgets.length = 1 := by
    decide +kernel
  have halone : ∃ c ∈ (adultRequest.alone adultRequest.statement).compilation?,
      c.statement.gadgets.length = 2 := by
    decide +kernel
  obtain ⟨c, hc, hlength⟩ := hcompile
  obtain ⟨alone, halone, hlength'⟩ := halone
  rw [Option.mem_def, compilation?_eq_some_iff] at hc halone
  obtain ⟨⟨main, hmain, hwithout⟩, -⟩ := adultRequest.compile_isolated.1 c hc
  have hmain' := hmain
  rw [isolated?, halone] at hmain'
  cases hmain'
  exact ⟨c, _, hc, hmain, hwithout, hlength, by simpa [Compiled.renumber] using hlength'⟩

/-! ### Too many premises -/

/-- A statement that says nothing. -/
def blank : Statement :=
  ⟨"blank", "", [], []⟩

/-- The request to show nothing, from premises that say nothing. -/
def blankRequest (premises : Nat) : Request where
  name := "blank"
  statement := blank
  premises := List.replicate premises blank
  schemas := []
  witness := []
  disclosed := []
  cap := 10

/-- **Statements that compile alone need not compile together**: there may be no room for them. -/
theorem exists_crowded :
    ∃ request : Request,
      (∀ statement ∈ request.statement :: request.premises,
        ∃ c, (request.alone statement).compile? = some (.ok c)) ∧
      request.compile? = none := by
  refine ⟨blankRequest SourceMap.capacity, fun statement hstatement => ?_, ?_⟩
  · have hblank : statement = blank := by
      rcases List.mem_cons.1 hstatement with rfl | hpremise
      · rfl
      · exact List.eq_of_mem_replicate hpremise
    have hcompile : ∃ c ∈ (blankRequest 0).compilation?, c.warnings = [] := by decide +kernel
    obtain ⟨c, hc, -⟩ := hcompile
    rw [hblank]
    exact ⟨c, compilation?_eq_some_iff.1 hc⟩
  · rw [compile?_eq_none_iff, Fits, texts]
    simp [blankRequest, DataContext.rules]

end Request

end Attestation
