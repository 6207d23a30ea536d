import Attestation.Proofs.Usage
import Mathlib.Data.List.Nodup

/-!
# Rules as instances of themselves

In the rule about a subject the reserved aliases stand for this subject. Putting the subject's own
alias in their place, in declarations and operands alike, makes a statement of the rule that can be
resolved like any other (`Syntax.Statement.instantiate`). Both ways come to the same
(`Scope.resolve_instantiate`): one resolves its names as it meets them, the other beforehand. Only
texts differ: an error quotes a name as it is written, and a statement is warned about a subject
that is not used, where a rule is not about its own.
-/

namespace Attestation

open Syntax

/-! ## Putting an alias in the place of the reserved ones -/

namespace Syntax

variable (p : String)

/-- The operand with an alias in the place of the reserved ones. -/
def Operand.instantiate : Operand → Operand
  | .identifier name selector span => .identifier (standsFor (some p) name) selector span
  | .literal constant span => .literal constant span

/-- The argument with an alias in the place of the reserved ones. -/
def Element.instantiate : Element → Element
  | .single operand => .single (operand.instantiate p)
  | .absent => .absent
  | .list operands => .list (operands.map (Operand.instantiate p))
  | .tree t => .tree ⟨t.root.map (Operand.instantiate p), t.span⟩

/-- The predicate with an alias in the place of the reserved ones. -/
def Predicate.instantiate : Predicate → Predicate
  | equality left right span => .equality (left.instantiate p) (right.instantiate p) span
  | inequality left right span => .inequality (left.instantiate p) (right.instantiate p) span
  | bounds value min max span =>
    .bounds (value.instantiate p) (min.map (Operand.instantiate p))
      (max.map (Operand.instantiate p)) span
  | membership member set span =>
    .membership (member.instantiate p) (set.map (Operand.instantiate p)) span
  | mimcHash preimage image span => .mimcHash (preimage.instantiate p) (image.instantiate p) span
  | merkleTree root tree span =>
    .merkleTree (root.instantiate p) ⟨tree.root.map (Operand.instantiate p), tree.span⟩ span

/-- The declaration with an alias in the place of the reserved ones. -/
def Declaration.instantiate (d : Declaration) : Declaration :=
  { d with subject := ⟨standsFor (some p) d.subject.name, d.subject.span⟩ }

/-- The statement with an alias in the place of the reserved ones, wherever they are declared or
referred to. -/
def Statement.instantiate (statement : Statement) : Statement :=
  { statement with
    subjects := statement.subjects.map (Declaration.instantiate p)
    predicates := statement.predicates.map (Predicate.instantiate p) }

variable {p}

@[simp] theorem Predicate.kind_instantiate (predicate : Predicate) :
    (predicate.instantiate p).kind = predicate.kind := by
  cases predicate <;> rfl

@[simp] theorem Predicate.span_instantiate (predicate : Predicate) :
    (predicate.instantiate p).span = predicate.span := by
  cases predicate <;> rfl

theorem Predicate.fields_instantiate (predicate : Predicate) : (predicate.instantiate p).fields =
    predicate.fields.map fun (name, element) => (name, element.instantiate p) := by
  cases predicate with
  | bounds value min max span => cases min <;> cases max <;> rfl
  | _ => rfl

theorem Predicate.arguments_instantiate (predicate : Predicate) :
    (predicate.instantiate p).arguments = predicate.arguments.map (Operand.instantiate p) := by
  cases predicate with
  | bounds value min max span => cases min <;> cases max <;> rfl
  | merkleTree root tree span => simp [instantiate, arguments, Tree.leaves_map]
  | _ => rfl

theorem Statement.mentions_instantiate (statement : Statement) :
    (statement.instantiate p).mentions = statement.mentions.map (standsFor (some p)) := by
  unfold mentions instantiate
  simp only [List.flatMap_map, Predicate.arguments_instantiate, ← List.map_flatMap,
    List.filterMap_map, List.map_filterMap]
  refine List.filterMap_congr fun operand _ => ?_
  cases operand <;> rfl

end Syntax

/-! ## Subjects -/

theorem standsFor_not_mem {p name : String} (hp : p ∉ reservedAliases) :
    standsFor (some p) name ∉ reservedAliases := by
  unfold standsFor
  split_ifs with h
  · exact hp
  · exact h

namespace Scope

variable {context : DataContext} {registry : Registry} {source : Nat} {p : String}

theorem declaredAlias_instantiate (hp : p ∉ reservedAliases) (d : Declaration) :
    (Scope.mk context registry source none).declaredAlias (d.instantiate p).subject =
      (Scope.mk context registry source (some p)).declaredAlias d.subject := by
  have hfree : (d.instantiate p).subject.name ∉ reservedAliases := standsFor_not_mem hp
  rw [declaredAlias, if_neg hfree, declaredAlias]
  change Except.ok (standsFor (some p) d.subject.name) = _
  unfold standsFor
  split_ifs <;> rfl

theorem declare_instantiate (hp : p ∉ reservedAliases) (subjects : Table Subject)
    (d : Declaration) :
    (Scope.mk context registry source none).declare subjects (d.instantiate p) =
      (Scope.mk context registry source (some p)).declare subjects d := by
  unfold declare
  rw [declaredAlias_instantiate hp]
  rfl

theorem declareAll_instantiate (hp : p ∉ reservedAliases) (ds : List Declaration) :
    (Scope.mk context registry source none).declareAll (ds.map (Declaration.instantiate p)) =
      (Scope.mk context registry source (some p)).declareAll ds := by
  unfold declareAll
  rw [List.foldlM_map]
  simp only [declare_instantiate hp]

/-! ## Operands and predicates -/

/-- The second error is the first, or both are about an alias that is not declared: the first quotes
a reserved alias, the second the one in its place. -/
inductive Requoted (p : String) : Diagnostic → Diagnostic → Prop
  | same (e : Diagnostic) : Requoted p e e
  | undeclared {name : String} (hname : name ∈ reservedAliases) (position : Position) :
    Requoted p (.located .undeclaredAlias position s!"Undeclared alias `{name}`.")
      (.located .undeclaredAlias position s!"Undeclared alias `{p}`.")

theorem agree_self {α : Type} (x : Except Diagnostic α) : Agree (Requoted p) Eq x x := by
  cases x with
  | error e => exact .error (.same e)
  | ok a => exact .ok rfl

variable {subjects : Table Subject}

theorem operand_instantiate (operand : Operand) : Agree (Requoted p) Eq
    ((Scope.mk context registry source (some p)).operand subjects operand)
    ((Scope.mk context registry source none).operand subjects (operand.instantiate p)) := by
  cases operand with
  | identifier name selector span =>
    unfold Scope.operand
    simp only [Operand.instantiate, referencedAlias_eq, standsFor]
    cases subjects.find? (if name ∈ reservedAliases then p else name) with
    | some subject => exact agree_self _
    | none =>
      split_ifs with hname
      · exact .error (.undeclared hname _)
      · exact .error (.same _)
  | literal constant span => exact agree_self _

theorem element_instantiate (element : Element) : Agree (Requoted p) Eq
    ((Scope.mk context registry source (some p)).element subjects element)
    ((Scope.mk context registry source none).element subjects (element.instantiate p)) := by
  cases element with
  | single operand => exact (operand_instantiate operand).map fun v w h => congrArg _ h
  | absent => exact .ok rfl
  | list operands =>
    exact (Agree.mapM fun operand _ => operand_instantiate operand).map fun v w h => congrArg _ h
  | tree t =>
    exact (Agree.tree fun operand _ => operand_instantiate operand).map fun v w h => congrArg _ h

theorem fields_instantiate (elements : List (String × Element)) : Agree (Requoted p) Eq
    ((Scope.mk context registry source (some p)).fields subjects elements)
    ((Scope.mk context registry source none).fields subjects
      (elements.map fun (name, element) => (name, element.instantiate p))) := by
  refine Agree.mapM ?_
  rintro ⟨name, element⟩ -
  exact (element_instantiate element).bind fun v w h => .ok (by rw [h])

theorem gadget_instantiate (predicate : Predicate) : Agree (Requoted p) Eq
    ((Scope.mk context registry source (some p)).gadget subjects predicate)
    ((Scope.mk context registry source none).gadget subjects (predicate.instantiate p)) := by
  unfold gadget
  simp only [Predicate.kind_instantiate, Predicate.span_instantiate, Predicate.fields_instantiate]
  cases registry.find? predicate.kind with
  | none => exact agree_self _
  | some kind =>
    refine (fields_instantiate predicate.fields).bind fun table table' h => ?_
    subst h
    exact agree_self _

/-! ## Statements -/

/-- The text of the warning about a subject. -/
def unusedText (name : String) : String :=
  s!"Subject `{name}` is declared but never used."

theorem unusedText_injective : Function.Injective unusedText := by
  intro a b h
  have hname : toString a = toString b := by simpa [unusedText] using h
  exact hname

/-- The resolved statements are the same but for the warning about a subject: the first does not
have it, the second has it at most once. -/
structure SameBut (p : String) (r r' : Resolved) : Prop where
  gadgets : r.gadgets = r'.gadgets
  subjects : r.subjects = r'.subjects
  warnings : r.warnings = r'.warnings.filter fun w => w.message ≠ unusedText p
  once : r'.warnings.countP (fun w => w.message = unusedText p) ≤ 1

theorem usedAliases_instantiate (statement : Statement) :
    (Scope.mk context registry source none).usedAliases (statement.instantiate p).predicates =
      (Scope.mk context registry source (some p)).usedAliases statement.predicates := by
  rw [usedAliases_eq_map, usedAliases_eq_map, Statement.mentions_instantiate]
  exact List.map_id _

/-- Outside of rules there is a warning about every subject that is not used. -/
theorem unusedWarning?_none (name : String) (subject : Subject) :
    (Scope.mk context registry source none).unusedWarning? name subject =
      some (.warning .unusedSubject subject.position (unusedText name)) :=
  rfl

/-- In a rule the warning about its own subject is left out. -/
theorem unusedWarning?_some (name : String) (subject : Subject) :
    (Scope.mk context registry source (some p)).unusedWarning? name subject =
      ((Scope.mk context registry source none).unusedWarning? name subject).filter
        fun w => w.message ≠ unusedText p := by
  have hmessage : (Diagnostic.warning .unusedSubject subject.position (unusedText name)).message =
      unusedText name := rfl
  rw [unusedWarning?_none, Option.filter_some, hmessage, unusedWarning?]
  by_cases hname : p = name
  · simp [hname]
  · have htext : unusedText name ≠ unusedText p := fun h => hname (unusedText_injective h).symm
    simp only [Option.some.injEq, hname, htext, if_false, ne_eq, not_false_eq_true, decide_true,
      if_true]
    rfl

/-- There is one warning about a subject at most: no two have the same alias. -/
theorem countP_unused_le_one (hkeys : subjects.keys.Nodup) (unused : String × Subject → Bool) :
    ((subjects.filter unused).filterMap fun entry =>
      (Scope.mk context registry source none).unusedWarning? entry.1 entry.2).countP
        (fun w => w.message = unusedText p) ≤ 1 := by
  simp only [unusedWarning?_none]
  rw [List.filterMap_eq_map', List.countP_map]
  calc (subjects.filter unused).countP (fun entry => unusedText entry.1 = unusedText p)
      ≤ subjects.countP (fun entry => unusedText entry.1 = unusedText p) :=
        List.filter_sublist.countP_le
    _ = subjects.keys.count p := by
        rw [Table.keys, List.count, List.countP_map]
        refine List.countP_congr fun entry _ => ?_
        rw [decide_eq_true_iff, unusedText_injective.eq_iff, Function.comp_apply, beq_iff_eq]
    _ ≤ 1 := List.nodup_iff_count_le_one.1 hkeys p

theorem collect_instantiate (hkeys : subjects.keys.Nodup) (statement : Statement)
    (gadgets : List Gadget) :
    SameBut p ((Scope.mk context registry source (some p)).collect statement subjects gadgets)
      ((Scope.mk context registry source none).collect (statement.instantiate p) subjects
        gadgets) where
  gadgets := rfl
  subjects := by simp only [collect, usedAliases_instantiate]
  warnings := by
    simp only [collect, usedAliases_instantiate, List.filter_filterMap]
    exact List.filterMap_congr fun entry _ => unusedWarning?_some entry.1 entry.2
  once := countP_unused_le_one hkeys _

variable (context registry source) in
/-- The rule and the statement with the alias put in are resolved alike. -/
theorem resolve_agree (hp : p ∉ reservedAliases) (statement : Statement) :
    Agree (Requoted p) (SameBut p)
      ((Scope.mk context registry source (some p)).resolve statement)
      ((Scope.mk context registry source none).resolve (statement.instantiate p)) := by
  rw [resolve_eq, resolve_eq]
  simp only [Statement.instantiate, declareAll_instantiate hp]
  cases hsubjects : (Scope.mk context registry source (some p)).declareAll statement.subjects with
  | error e => exact .error (.same e)
  | ok subjects =>
    refine (Agree.mapM fun predicate _ => gadget_instantiate predicate).bind
      fun gadgets gadgets' h => ?_
    subst h
    exact .ok (collect_instantiate (nodup_keys_of_declareAll hsubjects) statement gadgets)

/-- **In a rule the reserved aliases stand for its subject by substitution.** Resolving the rule
about a subject comes to the same as resolving the rule with the subject's alias put in: to the same
gadgets and subjects, and to the same warnings but for the one about the subject; or else to an
error of the same kind with the same labels, in which at most the name of an alias that is not
declared is quoted in another way. -/
theorem resolve_instantiate (context : DataContext) (registry : Registry) (source : Nat)
    (p : String) (hp : p ∉ reservedAliases) (statement : Statement) :
    (∀ r, (Scope.mk context registry source (some p)).resolve statement = .ok r →
      ∃ r', (Scope.mk context registry source none).resolve (statement.instantiate p) = .ok r' ∧
        r.gadgets = r'.gadgets ∧ r.subjects = r'.subjects ∧
        (r.warnings = r'.warnings.filter fun w => w.message ≠ unusedText p) ∧
        r'.warnings.countP (fun w => w.message = unusedText p) ≤ 1) ∧
    ∀ e, (Scope.mk context registry source (some p)).resolve statement = .error e →
      ∃ e', (Scope.mk context registry source none).resolve (statement.instantiate p) = .error e' ∧
        e.kind = e'.kind ∧ e.labels = e'.labels ∧ e.severity = e'.severity ∧ e.notes = e'.notes ∧
        (e.message = e'.message ∨ e.kind = .undeclaredAlias ∧
          e'.message = s!"Undeclared alias `{p}`." ∧
          ∃ name ∈ reservedAliases, e.message = s!"Undeclared alias `{name}`.") := by
  have hagree := resolve_agree context registry source hp statement
  constructor
  · intro r hr
    rw [hr] at hagree
    obtain ⟨r', hr', hsame⟩ := hagree.exists_ok
    exact ⟨r', hr', hsame.gadgets, hsame.subjects, hsame.warnings, hsame.once⟩
  · intro e he
    rw [he] at hagree
    obtain ⟨e', he', hquoted⟩ := hagree.exists_error
    refine ⟨e', he', ?_⟩
    cases hquoted with
    | same => exact ⟨rfl, rfl, rfl, rfl, .inl rfl⟩
    | undeclared hname position =>
      exact ⟨rfl, rfl, rfl, rfl, .inr ⟨rfl, rfl, _, hname, rfl⟩⟩

/-- A rule about guests that asks for their city without declaring them. -/
def cityRule : Statement :=
  { partyRule with
    subjects := []
    predicates := [.equality (Request.fieldOf "public" "city") (Request.string "Bern")
      Request.noSpan] }

theorem resolve_instantiate_party :
    "alice" ∉ reservedAliases ∧
    (∃ r r', (partyScope.nested 1 "alice").resolve partyRule = .ok r ∧
      (partyScope.part 1 none).resolve (partyRule.instantiate "alice") = .ok r' ∧
      r.gadgets = r'.gadgets ∧ r.subjects = r'.subjects ∧
      (r.warnings = r'.warnings.filter fun w => w.message ≠ unusedText "alice") ∧
      r'.warnings.length = 2) ∧
    ∃ e e', (partyScope.nested 1 "alice").resolve cityRule = .error e ∧
      (partyScope.part 1 none).resolve (cityRule.instantiate "alice") = .error e' ∧
      e.kind = e'.kind ∧ e.labels = e'.labels ∧ e.message ≠ e'.message := by
  have halice : "alice" ∉ reservedAliases := by decide
  have hsome : ∃ r ∈ ((partyScope.nested 1 "alice").resolve partyRule).toOption,
      r.warnings.length = 1 := by decide +kernel
  have hwarnings : ∀ r' ∈ ((partyScope.part 1 none).resolve (partyRule.instantiate
      "alice")).toOption, r'.warnings.length = 2 := by decide +kernel
  have hfails : ∃ e ∈ failure? ((partyScope.nested 1 "alice").resolve cityRule),
      e.message = "Undeclared alias `public`." := by decide +kernel
  have hquotes : ∀ e' ∈ failure? ((partyScope.part 1 none).resolve (cityRule.instantiate "alice")),
      e'.message = "Undeclared alias `alice`." := by decide +kernel
  obtain ⟨r, hr, -⟩ := hsome
  obtain ⟨e, he, hmessage⟩ := hfails
  obtain ⟨r', hr', hgadgets, hsubjects, hfilter, -⟩ := (resolve_instantiate partyScope.context
    .standard 1 "alice" halice partyRule).1 r (toOption_eq_some_iff.1 hr)
  obtain ⟨e', he', hkind, hlabels, -⟩ := (resolve_instantiate partyScope.context
    .standard 1 "alice" halice cityRule).2 e (failure?_eq_some_iff.1 he)
  refine ⟨halice, ⟨r, r', toOption_eq_some_iff.1 hr, hr', hgadgets, hsubjects, hfilter,
    hwarnings r' (toOption_eq_some_iff.2 hr')⟩, e, e', failure?_eq_some_iff.1 he, he', hkind,
    hlabels, ?_⟩
  rw [hmessage, hquotes e' (failure?_eq_some_iff.2 he')]
  decide

end Scope

end Attestation
