import Attestation.Proofs.PremiseIsolation

/-!
# Where positions point

Variables, subjects and diagnostics carry positions. This module follows them through the compiler:
`Points` says of an outcome that all positions in it, be it a value or an error, have a property,
and a sequence of computations has it if its parts do (`Points.bind`, `Points.mapM`).

What resolving a statement gives points into the source that the statement is resolved for, and
nowhere else (`Scope.points_resolve`). Resolving takes numbers of sources along without looking at
them, so a renumbering that leaves this one number alone leaves the outcome alone; and there is one
that has no other number. The optimizer adds no positions (`Optimizer.points_optimize`). So the
positions of a compiled request are those that its statements and the rules of their subjects are
resolved to (`Request.Given`, `Request.points_compileIn`).
-/

namespace Attestation

open Syntax

/-! ## Outcomes -/

section

variable {ε α β : Type} {errors : ε → List Position} {values : α → List Position}
  {values' : β → List Position} {P Q : Position → Prop}

/-- The positions of an outcome, of its value or of its error. -/
def outcomePositions (errors : ε → List Position) (values : α → List Position) :
    Except ε α → List Position
  | .error e => errors e
  | .ok a => values a

/-- Every position of an outcome has a property. -/
def Points (errors : ε → List Position) (values : α → List Position) (P : Position → Prop)
    (x : Except ε α) : Prop :=
  ∀ p ∈ outcomePositions errors values x, P p

theorem Points.ok {a : α} (h : ∀ p ∈ values a, P p) : Points errors values P (.ok a) := h

theorem Points.error {e : ε} (h : ∀ p ∈ errors e, P p) : Points errors values P (.error e) := h

theorem Points.mono {x : Except ε α} (h : Points errors values P x) (hPQ : ∀ p, P p → Q p) :
    Points errors values Q x :=
  fun p hp => hPQ p (h p hp)

theorem Points.bind {x : Except ε α} {f : α → Except ε β} (hx : Points errors values P x)
    (hf : ∀ a, x = .ok a → (∀ p ∈ values a, P p) → Points errors values' P (f a)) :
    Points errors values' P (x >>= f) := by
  cases x with
  | error e => exact hx
  | ok a => exact hf a rfl hx

theorem Points.mapM {f : α → Except ε β} {l : List α}
    (h : ∀ a ∈ l, Points errors values' P (f a)) :
    Points errors (List.flatMap values') P (l.mapM f) := by
  induction l with
  | nil => exact List.forall_mem_nil _
  | cons a rest ih =>
    rw [List.mapM_cons]
    have hrest := ih fun b hb => h b (List.mem_cons_of_mem _ hb)
    refine (h a List.mem_cons_self).bind fun b _ hb => hrest.bind fun bs _ hbs => ?_
    exact List.forall_mem_append.2 ⟨hb, hbs⟩

end

/-! ## Positions -/

namespace Diagnostic

/-- The positions of the places that a diagnostic points at. -/
def positions (d : Diagnostic) : List Position :=
  d.labels.filterMap (·.position)

variable (d : Diagnostic)

@[simp] theorem positions_unlocated (kind : Kind) (message : String) :
    (unlocated kind message).positions = [] := rfl

@[simp] theorem positions_withVariable (v : Variable) (message : String) :
    (d.withVariable v message).positions = d.positions ++ v.position.toList := by
  cases h : v.position <;> simp [positions, withVariable, h]

theorem positions_rename (ρ : Renaming) :
    (d.rename ρ).positions = d.positions.map (Position.rename ρ) := by
  simp only [positions, rename, List.filterMap_map, List.map_filterMap]
  rfl

end Diagnostic

namespace Gadget

/-- The positions of the variables of a gadget. -/
def positions (g : Gadget) : List Position :=
  g.vars.filterMap (·.position)

theorem mem_positions {g : Gadget} {p : Position} :
    p ∈ g.positions ↔ ∃ v ∈ g.vars, v.position = some p :=
  List.mem_filterMap

theorem vars_rename (ρ : Renaming) (g : Gadget) :
    (g.rename ρ).vars = g.vars.map (Variable.rename ρ) := by
  cases g with
  | merkleTree g => exact congrArg (_ :: ·) (Tree.leaves_map _ g.tree)
  | _ => rfl

theorem positions_rename (ρ : Renaming) (g : Gadget) :
    (g.rename ρ).positions = g.positions.map (Position.rename ρ) := by
  simp only [positions, vars_rename, List.filterMap_map, List.map_filterMap]
  rfl

end Gadget

/-- The positions of subjects, where they are declared. -/
def subjectPositions (subjects : Table Subject) : List Position :=
  subjects.map (·.2.position)

namespace Resolved

/-- All positions of a resolved statement. -/
def positions (r : Resolved) : List Position :=
  subjectPositions r.subjects ++ r.gadgets.flatMap Gadget.positions ++
    r.warnings.flatMap Diagnostic.positions

theorem positions_rename (w : Table Accessor) (ρ : Renaming) (r : Resolved) :
    (r.rename w ρ).positions = r.positions.map (Position.rename ρ) := by
  simp only [positions, rename, List.map_append, List.flatMap_map, List.map_flatMap,
    Gadget.positions_rename, Diagnostic.positions_rename]
  congr 2
  simp only [subjectPositions, rebindAll, Table.mapValues, List.map_map]
  rfl

end Resolved

/-! ## Statements -/

/-- An outcome that is the same with other numbers for sources points only where these numbers are
the same. -/
theorem points_of_rename_eq {w : Table Accessor} {ρ : Renaming} {x : Except Diagnostic Resolved}
    (h : mapBoth (.rename ρ) (.rename w ρ) x = x) :
    Points Diagnostic.positions Resolved.positions (fun p => ρ.source p.source = p.source) x := by
  have hfixed : ∀ {l : List Position}, l.map (Position.rename ρ) = l →
      ∀ p ∈ l, ρ.source p.source = p.source := by
    intro l hl p hp
    have hsame : p.rename ρ = p := List.map_inj_left.1 (hl.trans (List.map_id l).symm) p hp
    exact congrArg Position.source hsame
  cases x with
  | error e =>
    have he : e.rename ρ = e := Except.error.inj h
    exact .error (hfixed (by rw [← e.positions_rename, he]))
  | ok r =>
    have hr : r.rename w ρ = r := Except.ok.inj h
    exact .ok (hfixed (by rw [← r.positions_rename w, hr]))

/-- **Resolving a statement points into its own source only.** -/
theorem Scope.points_resolve (scope : Scope) (statement : Statement) :
    Points Diagnostic.positions Resolved.positions (fun p => p.source = scope.source)
      (scope.resolve statement) := by
  have hmatches := scope.context.matches_renumbering (fun _ => scope.source) scope.parent statement
  -- the numbers of rules play no part in resolving a single statement
  have hsame : (scope.rebind scope.context.witness (.renumbering fun _ => scope.source)).resolve
      statement = scope.resolve statement := rfl
  rw [scope.resolve_rebind hmatches] at hsame
  exact (points_of_rename_eq hsame).mono fun p hp => hp.symm

/-! ## The optimizer -/

theorem Diagnostic.mem_positions_withVariables {kind : Kind} {v w : Variable} {p : Position}
    {message text text' : String}
    (h : p ∈ (((unlocated kind message).withVariable v text).withVariable w text').positions) :
    v.position = some p ∨ w.position = some p := by
  simpa using h

theorem exists_mem_positions {matched : List Gadget} {m : Gadget} {v : Variable} {p : Position}
    (hm : m ∈ matched) (hv : v ∈ m.vars) (hp : v.position = some p) :
    ∃ m ∈ matched, p ∈ m.positions :=
  ⟨m, hm, Gadget.mem_positions.2 ⟨v, hv, hp⟩⟩

/-- A contradiction points at variables of the gadgets that are in it. -/
theorem Contradiction.Finds.mem_positions {matched : List Gadget} {error : Diagnostic}
    (h : Finds matched error) {p : Position} (hp : p ∈ error.positions) :
    ∃ m ∈ matched, p ∈ m.positions := by
  cases h with
  | @empty b _ h =>
    unfold Bounds.empty? at h
    split at h
    case h_2 => cases h
    split_ifs at h
    cases h
    rcases Diagnostic.mem_positions_withVariables hp with hv | hv
    · exact exists_mem_positions List.mem_cons_self (by simp [Gadget.vars]) hv
    · exact exists_mem_positions List.mem_cons_self (by simp [Gadget.vars]) hv
  | @disjoint a b _ _ hperm h =>
    have ha : .bounds a ∈ matched := hperm.symm.subset (by simp)
    have hb : .bounds b ∈ matched := hperm.symm.subset (by simp)
    unfold Bounds.disjoint? at h
    split_ifs at h
    split at h
    case h_2 => cases h
    split_ifs at h
    · cases h
      rcases Diagnostic.mem_positions_withVariables hp with hv | hv
      · exact exists_mem_positions ha (by simp [Gadget.vars]) hv
      · exact exists_mem_positions hb (by simp [Gadget.vars]) hv
    · cases h
      rcases Diagnostic.mem_positions_withVariables hp with hv | hv
      · exact exists_mem_positions hb (by simp [Gadget.vars]) hv
      · exact exists_mem_positions ha (by simp [Gadget.vars]) hv
  | @unequal e _ h =>
    unfold Equality.unequal? at h
    split_ifs at h
    cases h
    rcases Diagnostic.mem_positions_withVariables hp with hv | hv
    · exact exists_mem_positions List.mem_cons_self (by simp [Gadget.vars]) hv
    · exact exists_mem_positions List.mem_cons_self (by simp [Gadget.vars]) hv
  | @reflexive i _ h =>
    unfold Inequality.reflexive? at h
    split_ifs at h
    cases h
    rcases Diagnostic.mem_positions_withVariables hp with hv | hv
    · exact exists_mem_positions List.mem_cons_self (by simp [Gadget.vars]) hv
    · exact exists_mem_positions List.mem_cons_self (by simp [Gadget.vars]) hv
  | @denied e i _ _ hperm h =>
    have he : .equality e ∈ matched := hperm.symm.subset (by simp)
    have hi : .inequality i ∈ matched := hperm.symm.subset (by simp)
    unfold Equality.denied? at h
    split_ifs at h
    cases h
    rcases Diagnostic.mem_positions_withVariables hp with hv | hv
    · exact exists_mem_positions he (by simp [Gadget.vars]) hv
    · exact exists_mem_positions hi (by simp [Gadget.vars]) hv
  | @excluded m _ h =>
    unfold Membership.excluded? at h
    split_ifs at h
    cases h
    have hv : m.member.position = some p := by simpa using hp
    exact exists_mem_positions List.mem_cons_self (by simp [Gadget.vars]) hv
  | @ambiguous a b _ _ hperm h =>
    have ha : .mimcHash a ∈ matched := hperm.symm.subset (by simp)
    have hb : .mimcHash b ∈ matched := hperm.symm.subset (by simp)
    unfold MimcHash.ambiguous? at h
    split_ifs at h
    cases h
    rcases Diagnostic.mem_positions_withVariables hp with hv | hv
    · exact exists_mem_positions ha (by simp [Gadget.vars]) hv
    · exact exists_mem_positions hb (by simp [Gadget.vars]) hv

section

variable {P : Position → Prop}

/-- Positions that rules find they also leave. -/
theorem KeptByRules.positions (P : Position → Prop) :
    KeptByRules fun g => ∀ p ∈ g.positions, P p := by
  have hvars := KeptByRules.vars fun v => ∀ p, v.position = some p → P p
  have hiff : ∀ g : Gadget, (∀ v ∈ g.vars, ∀ p, v.position = some p → P p) ↔
      ∀ p ∈ g.positions, P p := by
    intro g
    constructor
    · intro h p hp
      obtain ⟨v, hv, hvp⟩ := Gadget.mem_positions.1 hp
      exact h v hv p hvp
    · exact fun h v hv p hvp => h p (Gadget.mem_positions.2 ⟨v, hv, hvp⟩)
  simpa only [hiff] using hvars

/-- **The optimizer adds no positions.** -/
theorem Optimizer.points_optimize {rules : RuleSet} {cap : Nat} {gadgets : List Gadget}
    (h : ∀ p ∈ gadgets.flatMap Gadget.positions, P p) :
    Points Diagnostic.positions (List.flatMap Gadget.positions) P (optimize rules cap gadgets) := by
  have hgadgets : ∀ g ∈ gadgets, ∀ p ∈ g.positions, P p := List.forall_mem_flatMap.1 h
  cases hrun : optimize rules cap gadgets with
  | ok out => exact List.forall_mem_flatMap.2 ((KeptByRules.positions P).optimize hrun hgadgets)
  | error e =>
    rcases optimize_eq_error hrun with rfl | ⟨t, hreach, hstep⟩
    · exact List.forall_mem_nil _
    · have ht := (KeptByRules.positions P).reaches hreach (KeptByRules.initial hgadgets)
      obtain ⟨matched, hfinds, hsub⟩ :=
        RuleSet.contradiction?_eq_some (OptimizerState.step_eq_contradiction hstep)
      intro p hp
      obtain ⟨m, hm, hmp⟩ := hfinds.mem_positions hp
      exact ht m (hsub hm) p hmp

/-! ## Statements with their rules -/

/-- The positions of the gadgets and warnings of a rule. -/
def rulePositions (r : List Gadget × List Diagnostic) : List Position :=
  r.1.flatMap Gadget.positions ++ r.2.flatMap Diagnostic.positions

namespace Scope

variable {scope : Scope} {statement : Statement}

theorem points_ruleOf {subject : Subject}
    (h : ∀ rule source, subject.visibility = .witness → subject.schema.rule = some rule →
      scope.context.ruleSource? subject.schema = some source →
      Points Diagnostic.positions Resolved.positions P
        ((scope.nested source subject.name).resolve rule)) :
    Points Diagnostic.positions rulePositions P (scope.ruleOf subject) := by
  unfold ruleOf
  split
  case h_1 rule hvisibility hrule =>
    split
    case h_1 => exact List.forall_mem_nil _
    case h_2 source hsource =>
      refine (h rule source hvisibility hrule hsource).bind fun resolved _ hresolved => ?_
      intro p hp
      refine hresolved p ?_
      rw [Resolved.positions, List.append_assoc]
      exact List.mem_append_right _ hp
  case h_2 => exact List.forall_mem_nil _

theorem points_resolveWithRules
    (hmain : Points Diagnostic.positions Resolved.positions P (scope.resolve statement))
    (hrules : ∀ main, scope.resolve statement = .ok main → ∀ entry ∈ main.subjects,
      Points Diagnostic.positions rulePositions P (scope.ruleOf entry.2)) :
    Points Diagnostic.positions Resolved.positions P (scope.resolveWithRules statement) := by
  refine hmain.bind fun main hresolve hmain => ?_
  refine (Points.mapM (hrules main hresolve)).bind fun rules _ hrules => ?_
  refine .ok fun p hp => ?_
  simp only [Resolved.positions, List.flatMap_append, List.flatMap_assoc, List.mem_append] at hp
  rcases hp with (hp | hp | hp) | hp | hp
  · exact hmain p (by simp [Resolved.positions, hp])
  · exact hmain p (List.mem_append_left _ (List.mem_append_right _ hp))
  · obtain ⟨rule, hrule, hp⟩ := List.mem_flatMap.1 hp
    exact hrules p (List.mem_flatMap.2 ⟨rule, hrule, List.mem_append_left _ hp⟩)
  · exact hmain p (List.mem_append_right _ hp)
  · obtain ⟨rule, hrule, hp⟩ := List.mem_flatMap.1 hp
    exact hrules p (List.mem_flatMap.2 ⟨rule, hrule, List.mem_append_right _ hp⟩)

theorem points_compile {rules : RuleSet} {cap : Nat}
    (h : Points Diagnostic.positions Resolved.positions P (scope.resolveWithRules statement)) :
    Points Diagnostic.positions Resolved.positions P (scope.compile rules cap statement) := by
  refine h.bind fun resolved _ hresolved => ?_
  have hgadgets : ∀ p ∈ resolved.gadgets.flatMap Gadget.positions, P p := fun p hp =>
    hresolved p (List.mem_append_left _ (List.mem_append_right _ hp))
  refine (Optimizer.points_optimize hgadgets).bind fun gadgets _ hgadgets => ?_
  intro p hp
  rcases List.mem_append.1 hp with hp | hp
  · rcases List.mem_append.1 hp with hp | hp
    · exact hresolved p (List.mem_append_left _ (List.mem_append_left _ hp))
    · exact hgadgets p hp
  · exact hresolved p (List.mem_append_right _ hp)

end Scope

end

/-! ## Requests -/

/-- The positions of a compiled statement. -/
def Compiled.positions (c : Compiled) : List Position :=
  subjectPositions c.subjects ++ c.gadgets.flatMap Gadget.positions

/-- The positions of a compilation, in what is compiled and in the warnings. -/
def Compilation.positions (c : Compilation) : List Position :=
  (c.statement :: c.premises).flatMap Compiled.positions ++
    c.warnings.flatMap Diagnostic.positions

/-- The positions that the error and the warnings of a failed compilation have. -/
def Failure.positions (f : Failure) : List Position :=
  (f.warnings ++ [f.error]).flatMap Diagnostic.positions

/-- The positions in what a statement is resolved to, be it the error that it fails with. -/
def Scope.positions (scope : Scope) (statement : Statement) : List Position :=
  outcomePositions Diagnostic.positions Resolved.positions (scope.resolve statement)

theorem Scope.source_of_mem_positions {scope : Scope} {statement : Statement} {p : Position}
    (hp : p ∈ scope.positions statement) : p.source = scope.source :=
  scope.points_resolve statement p hp

namespace Request

/-- The positions in the outcome of a compilation. -/
def positionsOf : Except Failure Compilation → List Position :=
  outcomePositions Failure.positions Compilation.positions

/-- The sources that come with the outcome of a compilation. -/
def sourcesOf : Except Failure Compilation → SourceMap
  | .error failure => failure.sources
  | .ok c => c.sources

/-- What a position comes from: a text that is resolved for the source with a number. The text is a
statement of the request, which has its own number, or the rule of a witness subject that such a
statement keeps, for the source that the rule is looked up to have. -/
inductive Given (request : Request) : Nat → Statement → Position → Prop
  | statement {number : Nat} {statement : Statement} {p : Position}
      (h : (request.statement :: request.premises)[number]? = some statement)
      (hp : p ∈ (scope request.registered number).positions statement) :
      Given request number statement p
  | rule {number source : Nat} {statement rule : Statement} {main : Resolved}
      {entry : String × Subject} {p : Position}
      (h : (request.statement :: request.premises)[number]? = some statement)
      (hmain : (scope request.registered number).resolve statement = .ok main)
      (hentry : entry ∈ main.subjects) (hvisibility : entry.2.visibility = .witness)
      (hrule : entry.2.schema.rule = some rule)
      (hsource : request.registered.ruleSource? entry.2.schema = some source)
      (hp : p ∈ ((scope request.registered number).nested source entry.2.name).positions rule) :
      Given request source rule p

variable (request : Request)

/-- The positions of a compiled statement come from the statement and from rules. -/
theorem points_compile_statement (number : Nat) {statement : Statement}
    (h : (request.statement :: request.premises)[number]? = some statement) :
    Points Diagnostic.positions Resolved.positions (fun p => ∃ id text, request.Given id text p)
      ((scope request.registered number).compile .standard request.cap statement) := by
  refine Scope.points_compile (Scope.points_resolveWithRules ?_ ?_)
  · exact fun p hp => ⟨_, _, .statement h hp⟩
  · intro main hmain entry hentry
    refine Scope.points_ruleOf fun rule source hvisibility hrule hsource => ?_
    exact fun p hp => ⟨_, _, .rule h hmain hentry hvisibility hrule hsource hp⟩

section

variable {P : Position → Prop}

theorem points_compilePremises {context : DataContext} {sources : SourceMap} {cap number : Nat}
    {warnings : List Diagnostic} {premises : List Statement}
    (hwarnings : ∀ p ∈ warnings.flatMap Diagnostic.positions, P p)
    (h : ∀ entry ∈ premises.zipIdx number, Points Diagnostic.positions Resolved.positions P
      ((scope context entry.2).compile .standard cap entry.1)) :
    Points Failure.positions
      (fun r => r.1.flatMap Compiled.positions ++ r.2.flatMap Diagnostic.positions) P
      (compilePremises context sources cap number warnings premises) := by
  induction premises generalizing number warnings with
  | nil => exact hwarnings
  | cons premise rest ih =>
    rw [List.zipIdx_cons] at h
    obtain ⟨hpremise, hrest⟩ := List.forall_mem_cons.1 h
    rw [compilePremises]
    dsimp only at hpremise
    cases hcompile : (scope context number).compile .standard cap premise with
    | error e =>
      rw [hcompile] at hpremise
      refine .error fun p hp => ?_
      simp only [Failure.positions, List.flatMap_append, List.flatMap_singleton,
        List.mem_append] at hp
      exact hp.elim (hwarnings p) (hpremise p)
    | ok resolved =>
      rw [hcompile] at hpremise
      have hwarnings' : ∀ p ∈ (warnings ++ resolved.warnings).flatMap Diagnostic.positions, P p := by
        rw [List.flatMap_append]
        refine List.forall_mem_append.2 ⟨hwarnings, fun p hp => hpremise p ?_⟩
        exact List.mem_append_right _ hp
      refine (ih hwarnings' hrest).bind fun others _ hothers => ?_
      refine .ok fun p hp => ?_
      simp only [List.flatMap_cons, List.append_assoc] at hp
      rcases List.mem_append.1 hp with hp | hp
      · exact hpremise p (List.mem_append_left _ hp)
      · exact hothers p hp

end

/-- **Every position in the outcome of a compilation comes from a text that was compiled.** -/
theorem points_compileIn (sources : SourceMap) : Points Failure.positions Compilation.positions
    (fun p => ∃ id text, request.Given id text p)
    (request.compileIn request.registered sources) := by
  have hmain := request.points_compile_statement 0 rfl
  have hpremises : ∀ entry ∈ request.premises.zipIdx 1,
      Points Diagnostic.positions Resolved.positions (fun p => ∃ id text, request.Given id text p)
        ((scope request.registered entry.2).compile .standard request.cap entry.1) := by
    rintro ⟨premise, number⟩ hentry
    refine request.points_compile_statement number ?_
    have hnumbered : (premise, number) ∈ (request.statement :: request.premises).zipIdx :=
      List.mem_cons_of_mem _ hentry
    exact List.mk_mem_zipIdx_iff_getElem?.1 hnumbered
  rw [compileIn]
  cases hcompile : (scope request.registered 0).compile .standard request.cap request.statement with
  | error e =>
    rw [hcompile] at hmain
    refine .error fun p hp => hmain p ?_
    simpa [Failure.positions, outcomePositions] using hp
  | ok main =>
    rw [hcompile] at hmain
    refine (points_compilePremises (fun p hp => hmain p ?_) hpremises).bind
      fun rest _ hrest => ?_
    · exact List.mem_append_right _ hp
    obtain ⟨premises, warnings⟩ := rest
    refine .ok fun p hp => ?_
    rw [Compilation.positions, List.flatMap_cons, List.append_assoc] at hp
    rcases List.mem_append.1 hp with hp | hp
    · refine hmain p (List.mem_append_left _ ?_)
      rcases List.mem_append.1 hp with hp | hp
      · exact List.mem_append_left _ hp
      · obtain ⟨g, hg, hgp⟩ := List.mem_flatMap.1 hp
        exact List.mem_append_right _ (List.mem_flatMap.2 ⟨g, List.mem_of_mem_filter hg, hgp⟩)
    · exact hrest p hp

variable {request}

theorem exists_given_of_mem_positions {outcome : Except Failure Compilation}
    (h : request.compile? = some outcome) {p : Position} (hp : p ∈ positionsOf outcome) :
    ∃ id text, request.Given id text p := by
  obtain ⟨-, rfl⟩ := compile?_eq_some_iff.1 h
  exact request.points_compileIn request.sources p hp

theorem sources_of_compilePremises {context : DataContext} {sources : SourceMap} {cap number : Nat}
    {warnings : List Diagnostic} {premises : List Statement} {failure : Failure}
    (h : compilePremises context sources cap number warnings premises = .error failure) :
    failure.sources = sources := by
  induction premises generalizing number warnings with
  | nil => cases h
  | cons premise rest ih =>
    rw [compilePremises] at h
    split at h
    case h_1 =>
      cases h
      rfl
    case h_2 =>
      rcases bind_eq_error_iff.1 h with h | ⟨others, -, h⟩
      · exact ih h
      · cases h

theorem sourcesOf_compileIn (context : DataContext) (sources : SourceMap) :
    sourcesOf (request.compileIn context sources) = sources := by
  cases h : request.compileIn context sources with
  | ok c =>
    obtain ⟨main, -, -, -, hsources⟩ := compileIn_eq_ok h
    exact hsources
  | error failure =>
    rw [compileIn] at h
    split at h
    case h_1 =>
      cases h
      rfl
    case h_2 =>
      rcases bind_eq_error_iff.1 h with h | ⟨premises, -, h⟩
      · exact sources_of_compilePremises h
      · cases h

/-- The outcome comes with the sources that were registered. -/
theorem sourcesOf_eq {outcome : Except Failure Compilation} (h : request.compile? = some outcome) :
    sourcesOf outcome = request.sources := by
  obtain ⟨-, rfl⟩ := compile?_eq_some_iff.1 h
  exact sourcesOf_compileIn request.registered request.sources

namespace Given

variable {id : Nat} {text : Statement} {p : Position}

theorem source_eq (h : request.Given id text p) : p.source = id := by
  cases h with
  | statement _ hp => exact Scope.source_of_mem_positions hp
  | rule _ _ _ _ _ _ hp => exact Scope.source_of_mem_positions hp

/-- The source that a text is resolved for holds that text, or the rule of a schema that goes by the
same name as the one whose rule the text is. -/
theorem getElem?_sources (h : request.Given id text p) :
    request.sources[id]? = some ⟨text.source, text.text⟩ ∨
    ∃ entry ∈ request.schemas, ∃ other ∈ request.schemas, entry.2.name = other.2.name ∧
      entry.2.rule = some text ∧ ∃ rule, other.2.rule = some rule ∧
        request.sources[id]? = some ⟨rule.source, rule.text⟩ := by
  cases h with
  | statement h _ =>
    refine .inl ?_
    rw [Request.getElem?_sources, request.getElem?_texts_of_statement h, Option.map_some]
    rfl
  | @rule number source statement rule main entry p h hmain hentry hvisibility hrule hsource hp =>
    obtain ⟨d, -, hdec⟩ := Scope.declares_of_mem_subjects hmain hentry
    obtain ⟨schema, hschema, hbinds⟩ := hdec.binds
    rw [← hbinds.schema_eq] at hschema
    have hsupplied : (d.schema.name, entry.2.schema) ∈ request.schemas :=
      DataContext.mem_schemas_of_schema? hschema (by rw [hrule]; rfl)
    obtain ⟨-, other, hother, hname, rule', hrule', hheld⟩ := request.source_of_ruleSource? hsource
    exact .inr ⟨_, hsupplied, other, hother, hname.symm, hrule, rule', hrule', hheld⟩

end Given

end Request

end Attestation
