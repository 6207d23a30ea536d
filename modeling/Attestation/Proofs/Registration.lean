import Attestation.Compiler.Compilation
import Attestation.Proofs.Outcome
import Mathlib.Data.List.Basic

/-!
# Registered sources

The sources of a request are added one after the other: the statement, the premises, then the rules
of the supplied schemas. Whether there is room for all of them only depends on how many there are. If
there is, the number of each is its place among them, and the number of a rule is kept under the name
of its schema (`Request.register?_eq`). So a request has an outcome exactly if its sources fit, and
then it is compiled in the context `Request.registered` with the sources `Request.sources`
(`Request.compile?_eq_some_iff`).
-/

namespace Attestation

open Syntax

/-- The statement as a source. -/
def Syntax.Statement.toSource (statement : Statement) : SourceText :=
  ⟨statement.source, statement.text⟩

/-- The sources with those of statements behind them. -/
def SourceMap.extend (sources : SourceMap) (statements : List Statement) : SourceMap :=
  sources ++ (statements.map Statement.toSource).toArray

namespace SourceMap

theorem size_extend (sources : SourceMap) (statements : List Statement) :
    (sources.extend statements).size = sources.size + statements.length := by
  simp [extend]

theorem extend_extend (sources : SourceMap) (statements more : List Statement) :
    (sources.extend statements).extend more = sources.extend (statements ++ more) := by
  simp [extend]

theorem add?_eq (sources : SourceMap) (statement : Statement) :
    sources.add? statement.source statement.text =
      if sources.size < capacity then some (sources.extend [statement]) else none := by
  simp [add?, extend, Statement.toSource]

/-- Room for one, and then room for the others, is room for all. -/
theorem bind_of_room {α β : Type} {size count : Nat} {a : α} {b : β} {f : α → Option β}
    (h : size < capacity → f a = if size + 1 + count ≤ capacity then some b else none) :
    (if size < capacity then some a else none).bind f =
      if size + (count + 1) ≤ capacity then some b else none := by
  have hcount : size + 1 + count = size + (count + 1) := by omega
  rw [hcount] at h
  by_cases hroom : size < capacity
  · rw [if_pos hroom, Option.bind_some, h hroom]
  · rw [if_neg hroom, Option.bind_none, if_neg (by omega)]

end SourceMap

/-- Statements are added if there is room for all of them. -/
theorem Request.addStatements?_eq {sources : SourceMap} (h : sources.size ≤ SourceMap.capacity)
    (statements : List Statement) :
    addStatements? sources statements =
      if sources.size + statements.length ≤ SourceMap.capacity then
        some (sources.extend statements) else none := by
  induction statements generalizing sources with
  | nil => simp [addStatements?, SourceMap.extend, h]
  | cons statement rest ih =>
    have hstep : addStatements? sources (statement :: rest) =
        (sources.add? statement.source statement.text).bind (addStatements? · rest) := rfl
    rw [hstep, SourceMap.add?_eq]
    refine SourceMap.bind_of_room fun hroom => ?_
    have hsize := SourceMap.size_extend sources [statement]
    rw [ih (hsize ▸ hroom), hsize, SourceMap.extend_extend]
    rfl

/-! ## Rules -/

namespace DataContext

/-- The rules of schemas, in order. -/
def rules (schemas : Table Schema) : List Statement :=
  schemas.filterMap (·.2.rule)

/-- The numbers of rules by the names of their schemas, the first rule having a given number. Those
that are kept already stand, unless a schema has the same name. -/
def numberRules (first : Nat) : Table Schema → Table Nat → Table Nat
  | [], numbers => numbers
  | (_, schema) :: rest, numbers =>
    match schema.rule with
    | none => numberRules first rest numbers
    | some _ => numberRules (first + 1) rest (numbers.insert schema.name first)

variable {name : String} {schema : Schema} {rule : Statement} {rest : Table Schema}

theorem rules_cons_of_none (h : schema.rule = none) : rules ((name, schema) :: rest) = rules rest :=
  List.filterMap_cons_none h

theorem rules_cons_of_some (h : schema.rule = some rule) :
    rules ((name, schema) :: rest) = rule :: rules rest :=
  List.filterMap_cons_some h

theorem numberRules_cons_of_none (h : schema.rule = none) (first : Nat) (numbers : Table Nat) :
    numberRules first ((name, schema) :: rest) numbers = numberRules first rest numbers := by
  rw [numberRules, h]

theorem numberRules_cons_of_some (h : schema.rule = some rule) (first : Nat) (numbers : Table Nat) :
    numberRules first ((name, schema) :: rest) numbers =
      numberRules (first + 1) rest (numbers.insert schema.name first) := by
  rw [numberRules, h]

theorem registerRule?_of_some (h : schema.rule = some rule) (context : DataContext)
    (sources : SourceMap) :
    registerRule? (context, sources) schema =
      if sources.size < SourceMap.capacity then
        some ({ context with ruleSources := context.ruleSources.insert schema.name sources.size },
          sources.extend [rule]) else none := by
  rw [registerRule?, h]
  dsimp only
  rw [SourceMap.add?_eq]
  split_ifs <;> rfl

/-- Rules are added if there is room for all of them. -/
theorem foldlM_registerRule? (context : DataContext) {sources : SourceMap}
    (h : sources.size ≤ SourceMap.capacity) (schemas : Table Schema) :
    schemas.foldlM (fun state entry => registerRule? state entry.2) (context, sources) =
      if sources.size + (rules schemas).length ≤ SourceMap.capacity then
        some ({ context with ruleSources := numberRules sources.size schemas context.ruleSources },
          sources.extend (rules schemas)) else none := by
  induction schemas generalizing context sources with
  | nil => simp [rules, numberRules, SourceMap.extend, h]
  | cons entry rest ih =>
    obtain ⟨name, schema⟩ := entry
    rw [List.foldlM_cons]
    cases hrule : schema.rule with
    | none =>
      have hskip : registerRule? (context, sources) schema = some (context, sources) := by
        rw [registerRule?, hrule]
      rw [hskip, Option.bind_eq_bind, Option.bind_some, ih context h, rules_cons_of_none hrule,
        numberRules_cons_of_none hrule]
    | some rule =>
      rw [registerRule?_of_some hrule, rules_cons_of_some hrule, numberRules_cons_of_some hrule]
      refine SourceMap.bind_of_room fun hroom => ?_
      have hsize := SourceMap.size_extend sources [rule]
      rw [ih _ (hsize ▸ hroom), hsize, SourceMap.extend_extend]
      rfl

/-! ### Numbers of rules -/

/-- Where the numbers of rules are others, so are those that are kept. -/
theorem numberRules_mapValues {σ : Nat → Nat} {first first' : Nat}
    (h : ∀ k, σ (first + k) = first' + k) (schemas : Table Schema) (numbers : Table Nat) :
    numberRules first' schemas (numbers.mapValues σ) =
      (numberRules first schemas numbers).mapValues σ := by
  induction schemas generalizing first first' numbers with
  | nil => rfl
  | cons entry rest ih =>
    obtain ⟨name, schema⟩ := entry
    cases hrule : schema.rule with
    | none => rw [numberRules_cons_of_none hrule, numberRules_cons_of_none hrule, ih h]
    | some rule =>
      have hfirst : first' = σ first := (h 0).symm
      rw [numberRules_cons_of_some hrule, numberRules_cons_of_some hrule, hfirst,
        Table.insert_mapValues, ← hfirst, ih]
      intro k
      rw [Nat.add_assoc, h, Nat.add_assoc]

/-- The number that is kept under a name was kept before, or it is the number of the rule of a schema
of this name. -/
theorem of_find?_numberRules {first number : Nat} {schemas : Table Schema} {numbers : Table Nat}
    (h : (numberRules first schemas numbers).find? name = some number) :
    numbers.find? name = some number ∨
      ∃ k, number = first + k ∧ ∃ entry ∈ schemas, entry.2.name = name ∧
        ∃ rule, entry.2.rule = some rule ∧ (rules schemas)[k]? = some rule := by
  induction schemas generalizing first numbers with
  | nil => exact .inl h
  | cons entry rest ih =>
    obtain ⟨key, schema⟩ := entry
    cases hrule : schema.rule with
    | none =>
      rw [numberRules_cons_of_none hrule] at h
      rw [rules_cons_of_none hrule]
      refine (ih h).imp_right ?_
      rintro ⟨k, hk, entry, hentry, hfound⟩
      exact ⟨k, hk, entry, List.mem_cons_of_mem _ hentry, hfound⟩
    | some rule =>
      rw [numberRules_cons_of_some hrule] at h
      rw [rules_cons_of_some hrule]
      rcases ih h with hkept | ⟨k, hk, entry, hentry, hname, rule', hrule', hget⟩
      · rw [Table.find?_insert] at hkept
        split_ifs at hkept with hname
        · cases hkept
          exact .inr ⟨0, rfl, _, List.mem_cons_self, hname, rule, hrule, rfl⟩
        · exact .inl hkept
      · exact .inr ⟨k + 1, by omega, entry, List.mem_cons_of_mem _ hentry, hname, rule', hrule', hget⟩

/-- A number is kept under a name once it is, and under that of every schema with a rule. -/
theorem isSome_find?_numberRules {first : Nat} {schemas : Table Schema} {numbers : Table Nat}
    (h : (numbers.find? name).isSome = true ∨
      ∃ entry ∈ schemas, entry.2.rule.isSome = true ∧ entry.2.name = name) :
    ((numberRules first schemas numbers).find? name).isSome = true := by
  induction schemas generalizing first numbers with
  | nil => simpa [numberRules] using h
  | cons entry rest ih =>
    obtain ⟨key, schema⟩ := entry
    have hinsert : ∀ name, ((numbers.insert schema.name first).find? name).isSome = true ↔
        schema.name = name ∨ (numbers.find? name).isSome = true := by
      intro name
      rw [Table.find?_insert]
      split_ifs with hname <;> simp [hname]
    cases hrule : schema.rule with
    | none =>
      rw [numberRules_cons_of_none hrule]
      refine ih (h.imp_right ?_)
      rintro ⟨entry, hentry, hsome, hname⟩
      rcases List.mem_cons.1 hentry with rfl | hentry
      · rw [hrule] at hsome
        cases hsome
      · exact ⟨entry, hentry, hsome, hname⟩
    | some rule =>
      rw [numberRules_cons_of_some hrule]
      apply ih
      rcases h with h | ⟨entry, hentry, hsome, hname⟩
      · exact .inl ((hinsert name).2 (.inr h))
      · rcases List.mem_cons.1 hentry with rfl | hentry
        · exact .inl ((hinsert name).2 (.inl hname))
        · exact .inr ⟨entry, hentry, hsome, hname⟩

end DataContext

/-! ## Requests -/

namespace Request

variable (request : Request)

/-- The texts of a request that are sources: the statement, the premises and the rules. -/
def texts : List Statement :=
  request.statement :: request.premises ++ DataContext.rules request.schemas

/-- There is room for the sources of the request. -/
def Fits : Prop :=
  request.texts.length ≤ SourceMap.capacity

instance : Decidable request.Fits :=
  inferInstanceAs (Decidable (_ ≤ _))

/-- The sources of the request. -/
def sources : SourceMap :=
  (request.texts.map Statement.toSource).toArray

theorem getElem?_sources (number : Nat) :
    request.sources[number]? = request.texts[number]?.map Statement.toSource := by
  rw [sources, List.getElem?_toArray, List.getElem?_map]

/-- Statements come first. -/
theorem getElem?_texts_of_statement {number : Nat} {statement : Statement}
    (h : (request.statement :: request.premises)[number]? = some statement) :
    request.texts[number]? = some statement := by
  rw [texts, List.getElem?_append_left (List.getElem?_eq_some_iff.1 h).1, h]

/-- Rules come behind the statements. -/
theorem getElem?_texts_rule (k : Nat) :
    request.texts[request.premises.length + 1 + k]? = (DataContext.rules request.schemas)[k]? := by
  have hlength : (request.statement :: request.premises).length = request.premises.length + 1 :=
    List.length_cons
  rw [texts, List.getElem?_append_right (by omega), hlength, Nat.add_sub_cancel_left]

/-- The context that statements are compiled in. -/
def registered : DataContext :=
  { request.context with
    ruleSources := DataContext.numberRules (request.premises.length + 1) request.schemas [] }

/-- A rule that is looked up has a number behind those of the statements, and the source with this
number holds the rule of a schema of the same name. -/
theorem source_of_ruleSource? {schema : Schema} {number : Nat}
    (h : request.registered.ruleSource? schema = some number) :
    request.premises.length < number ∧ ∃ entry ∈ request.schemas, entry.2.name = schema.name ∧
      ∃ rule, entry.2.rule = some rule ∧ request.sources[number]? = some rule.toSource := by
  rcases DataContext.of_find?_numberRules h with
    hkept | ⟨k, rfl, entry, hentry, hname, rule, hrule, hget⟩
  · cases hkept
  · refine ⟨by omega, entry, hentry, hname, rule, hrule, ?_⟩
    rw [getElem?_sources, getElem?_texts_rule, hget, Option.map_some]

/-- **Sources are registered exactly if there is room for all of them.** -/
theorem register?_eq : request.register? =
    if request.Fits then some (request.registered, request.sources) else none := by
  let statements := request.statement :: request.premises
  have hadded : addStatements? #[] statements =
      if statements.length ≤ SourceMap.capacity then some (SourceMap.extend #[] statements)
        else none := by
    have hempty : (#[] : SourceMap).size ≤ SourceMap.capacity := Nat.zero_le _
    simpa using addStatements?_eq hempty statements
  have hsize : (SourceMap.extend #[] statements).size = statements.length := by
    simp [SourceMap.extend]
  have hlength : request.texts.length =
      statements.length + (DataContext.rules request.schemas).length := List.length_append
  have hsources : (SourceMap.extend #[] statements).extend (DataContext.rules request.schemas) =
      request.sources := by
    rw [SourceMap.extend_extend, SourceMap.extend, Array.empty_append]
    rfl
  have hregister : request.register? =
      (addStatements? #[] statements).bind request.context.registerRules? := rfl
  simp only [hregister, hadded, Fits, hlength]
  by_cases hroom : statements.length ≤ SourceMap.capacity
  · have hrules := request.context.foldlM_registerRule? (hsize ▸ hroom) request.schemas
    rw [hsources, hsize] at hrules
    rw [if_pos hroom, Option.bind_some]
    exact hrules
  · rw [if_neg hroom, Option.bind_none, if_neg]
    omega

/-- **A request has an outcome exactly if its sources fit.** -/
theorem compile?_eq : request.compile? =
    if request.Fits then some (request.compileIn request.registered request.sources) else none := by
  rw [compile?, register?_eq]
  split_ifs <;> rfl

variable {request}

theorem compile?_eq_some_iff {outcome : Except Failure Compilation} :
    request.compile? = some outcome ↔
      request.Fits ∧ request.compileIn request.registered request.sources = outcome := by
  rw [compile?_eq]
  split_ifs with h <;> simp [h]

/-- The compilation of a request that compiles. -/
def compilation? (request : Request) : Option Compilation :=
  request.compile?.bind Except.toOption

theorem compilation?_eq_some_iff {c : Compilation} :
    request.compilation? = some c ↔ request.compile? = some (.ok c) := by
  simp [compilation?, Option.bind_eq_some_iff, toOption_eq_some_iff]

/-- The failure of a request that does not compile. -/
def failure? (request : Request) : Option Failure :=
  request.compile?.bind Attestation.failure?

theorem failure?_eq_some_iff {failure : Failure} :
    request.failure? = some failure ↔ request.compile? = some (.error failure) := by
  simp [failure?, Option.bind_eq_some_iff, Attestation.failure?_eq_some_iff]

theorem compile?_eq_none_iff : request.compile? = none ↔ ¬ request.Fits := by
  rw [compile?_eq]
  split_ifs with h <;> simp [h]

end Request

end Attestation
