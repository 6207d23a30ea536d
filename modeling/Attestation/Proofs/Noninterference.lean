import Attestation.Proofs.Faithfulness
import Attestation.Proofs.Rebinding
import Attestation.Proofs.RenamedRendering
import Mathlib.Logic.Equiv.Basic

/-!
# What a compilation tells about witnesses

A compilation tells no more about witness data than which of the fields that are read hold equal
values. If this coincidence pattern is the same for two bindings of documents, there is a renaming
of values from one to the other (`Request.exists_renaming`), and what can be seen of the
compilations is the same: `Request.compile_indistinguishable`.
-/

namespace Attestation

open Syntax

/-! ## Renamings from patterns -/

/-- Pairs with one pattern of equal sides extend to an injective function that keeps every class its
pairs keep. -/
theorem exists_injective_of_pattern {α κ : Type} [DecidableEq α] (kind : α → κ)
    {pairs : List (α × α)} (hkind : ∀ p ∈ pairs, kind p.1 = kind p.2)
    (hpattern : ∀ p ∈ pairs, ∀ q ∈ pairs, p.1 = q.1 ↔ p.2 = q.2) :
    ∃ f : α → α, Function.Injective f ∧ (∀ a, kind (f a) = kind a) ∧ ∀ p ∈ pairs, f p.1 = p.2 := by
  induction pairs with
  | nil => exact ⟨id, Function.injective_id, fun _ => rfl, by simp⟩
  | cons p rest ih =>
    obtain ⟨f, hf, hk, hpairs⟩ := ih (fun q hq => hkind q (List.mem_cons_of_mem _ hq))
      fun q hq q' hq' => hpattern q (List.mem_cons_of_mem _ hq) q' (List.mem_cons_of_mem _ hq')
    have hp : kind p.1 = kind p.2 := hkind p List.mem_cons_self
    -- what `f` sends the new left side to changes places with the new right side
    refine ⟨fun a => Equiv.swap (f p.1) p.2 (f a), (Equiv.injective _).comp hf, fun a => ?_, ?_⟩
    · dsimp only
      rw [Equiv.swap_apply_def]
      split_ifs with hl hr
      · rw [← hp, hf hl]
      · rw [hk, hp, ← hr, hk]
      · exact hk a
    · intro q hq
      rcases List.mem_cons.1 hq with rfl | hq'
      · exact Equiv.swap_apply_left _ _
      · have hsame := hpattern q hq p List.mem_cons_self
        dsimp only
        rw [hpairs q hq', Equiv.swap_apply_def]
        split_ifs with hl hr
        · have hq1 : q.1 = p.1 := hf (by rw [hpairs q hq', hl])
          exact (hsame.1 hq1).symm
        · have hq1 : q.1 = p.1 := hsame.2 hr
          rw [← hq1, hpairs q hq', hr]
        · rfl

/-! ## What is held -/

namespace Accessor

variable {selector : Selector} {type : DataType} {l : Literal}

/-- What a document gives is of the type that is asked for and known. -/
theorem read_eq_ok {entry : Json} (h : read selector type entry = .ok l) :
    l.type = type ∧ l.isSealed = false := by
  unfold read at h
  split at h
  case h_3 =>
    split at h
    · cases h
      exact ⟨rfl, rfl⟩
    · cases h
  case h_5 =>
    split at h
    · cases h
      exact ⟨rfl, rfl⟩
    · cases h
  all_goals
    cases h
    try exact ⟨rfl, rfl⟩

theorem get_document {root : Json} (h : (document root).get selector type = .ok l) :
    l.type = type ∧ l.isSealed = false := by
  unfold get at h
  dsimp only at h
  split at h
  · cases h
  · exact read_eq_ok h

end Accessor

/-- All data is in documents. -/
def Documents (table : Table Accessor) : Prop :=
  ∀ entry ∈ table, ∃ root, entry.2 = .document root

namespace DataContext

variable {context : DataContext} {r : Reference} {l : Literal}

/-- A value that is held in documents is known, one that is held without data is not. -/
theorem held?_witness (hdocs : Documents context.witness)
    (h : context.held? .witness r = some l) :
    l.type = r.type ∧ l.isSealed = (context.witness.find? r.subject).isNone := by
  unfold held? at h
  dsimp only at h
  cases hfind : context.witness.find? r.subject with
  | none =>
    rw [hfind] at h
    cases h
    exact ⟨rfl, rfl⟩
  | some accessor =>
    obtain ⟨root, hroot⟩ := hdocs _ (Table.mem_of_find? hfind)
    dsimp only at hroot
    rw [hfind] at h
    dsimp only at h
    rw [toOption_eq_some_iff, hroot] at h
    exact Accessor.get_document h

end DataContext

/-! ## Indistinguishable outcomes -/

/-- What can be seen of two compilations is the same: the text, the values of disclosed slots, which
witness slots there are and all that is reported. -/
inductive Indistinguishable : Except Failure Compilation → Except Failure Compilation → Prop
  | error (failure : Failure) : Indistinguishable (.error failure) (.error failure)
  | ok {c c' : Compilation}
      (text : (render c.statement.gadgets).text = (render c'.statement.gadgets).text)
      (disclosed : (render c.statement.gadgets).disclosed = (render c'.statement.gadgets).disclosed)
      (slots :
        (render c.statement.gadgets).witness.keys = (render c'.statement.gadgets).witness.keys)
      (warnings : c.warnings = c'.warnings) (sources : c.sources = c'.sources) :
      Indistinguishable (.ok c) (.ok c')

theorem Indistinguishable.symm {a b : Except Failure Compilation} (h : Indistinguishable a b) :
    Indistinguishable b a := by
  cases h with
  | error failure => exact .error failure
  | ok text disclosed slots warnings sources =>
    exact .ok text.symm disclosed.symm slots.symm warnings.symm sources.symm

theorem indistinguishable_rename (w : Table Accessor) (ρ : Renaming)
    (outcome : Except Failure Compilation) :
    Indistinguishable outcome (outcome.map (Compilation.rename w ρ)) := by
  cases outcome with
  | error failure => exact .error failure
  | ok c =>
    obtain ⟨htext, hdisclosed, hslots⟩ := render_rename ρ c.statement.gadgets
    exact .ok htext.symm hdisclosed.symm hslots.symm rfl rfl

theorem exists_or_none_of_rel {α β : Type} {R : α → β → Prop} {a : Option α} {b : Option β}
    (h : Option.Rel R a b) : (∃ x y, a = some x ∧ b = some y ∧ R x y) ∨ a = none ∧ b = none := by
  cases h with
  | some h => exact .inl ⟨_, _, rfl, rfl, h⟩
  | none => exact .inr ⟨rfl, rfl⟩

theorem rel_rename (w : Table Accessor) (ρ : Renaming)
    (outcome : Option (Except Failure Compilation)) :
    Option.Rel Indistinguishable outcome (outcome.map (Except.map (Compilation.rename w ρ))) := by
  cases outcome with
  | none => exact .none
  | some outcome => exact .some (indistinguishable_rename w ρ outcome)

namespace Request

/-- The aliases of the witnesses that are declared. -/
def witnesses (request : Request) : List String :=
  request.parts.flatMap fun part => part.2.witnesses part.1

/-- The witness fields that are read. -/
def reads (request : Request) : List Reference :=
  request.parts.flatMap fun part => request.context.reads part.1 part.2

/-- Two fields that are read hold equal values in the data of the request exactly when they do in
other data. -/
def SamePattern (request : Request) (w : Table Accessor) : Prop :=
  ∀ r ∈ request.reads, ∀ r' ∈ request.reads,
    request.context.held? .witness r = request.context.held? .witness r' ↔
      (request.rebind w).context.held? .witness r = (request.rebind w).context.held? .witness r'

instance (request : Request) (w : Table Accessor) : Decidable (request.SamePattern w) :=
  inferInstanceAs (Decidable (∀ r ∈ request.reads, ∀ r' ∈ request.reads, _))

/-- Every field that is read holds a value. -/
def Held (request : Request) : Prop :=
  ∀ r ∈ request.reads, (request.context.held? .witness r).isSome = true

instance (request : Request) : Decidable request.Held :=
  inferInstanceAs (Decidable (∀ r ∈ request.reads, _))

variable {request : Request} {w : Table Accessor}

/-- The value that a field holds, or some number if it holds none. -/
def valueAt (request : Request) (r : Reference) : Literal :=
  (request.context.held? .witness r).getD (.integer 0)

theorem Held.valueAt_eq (h : request.Held) {r : Reference} (hr : r ∈ request.reads) :
    request.context.held? .witness r = some (request.valueAt r) := by
  obtain ⟨l, hl⟩ := Option.isSome_iff_exists.1 (h r hr)
  simp [valueAt, hl]

/-- **Data with the same pattern differs by a renaming**, which keeps every class of values that the
data keeps. -/
theorem exists_renaming {κ : Type} (kind : Literal → κ) (hheld : request.Held)
    (hheld' : (request.rebind w).Held) (hpattern : request.SamePattern w)
    (hkind : ∀ r ∈ request.reads, ∀ l l', request.context.held? .witness r = some l →
      (request.rebind w).context.held? .witness r = some l' → l.type = l'.type ∧ kind l = kind l') :
    ∃ ρ : Renaming, ρ.source = id ∧ (∀ l, kind (ρ.literal l) = kind l) ∧
      ∀ r ∈ request.reads, ∃ l, request.context.held? .witness r = some l ∧
        (request.rebind w).context.held? .witness r = some (ρ.literal l) := by
  have hclass : ∀ p ∈ request.reads.map fun r => (request.valueAt r, (request.rebind w).valueAt r),
      (p.1.type, kind p.1) = (p.2.type, kind p.2) := by
    intro p hp
    obtain ⟨r, hr, rfl⟩ := List.mem_map.1 hp
    obtain ⟨ht, hk⟩ := hkind r hr _ _ (hheld.valueAt_eq hr) (hheld'.valueAt_eq hr)
    exact Prod.ext ht hk
  have hsides : ∀ p ∈ request.reads.map fun r => (request.valueAt r, (request.rebind w).valueAt r),
      ∀ q ∈ request.reads.map fun r => (request.valueAt r, (request.rebind w).valueAt r),
      p.1 = q.1 ↔ p.2 = q.2 := by
    intro p hp q hq
    obtain ⟨r, hr, rfl⟩ := List.mem_map.1 hp
    obtain ⟨r', hr', rfl⟩ := List.mem_map.1 hq
    have hsame := hpattern r hr r' hr'
    rw [hheld.valueAt_eq hr, hheld.valueAt_eq hr', hheld'.valueAt_eq hr,
      hheld'.valueAt_eq hr'] at hsame
    simpa using hsame
  obtain ⟨f, hf, hkept, hpairs⟩ :=
    exists_injective_of_pattern (fun l : Literal => (l.type, kind l)) hclass hsides
  refine ⟨⟨f, hf, fun l => congrArg Prod.fst (hkept l), id⟩, rfl,
    fun l => congrArg Prod.snd (hkept l), fun r hr => ⟨request.valueAt r, hheld.valueAt_eq hr, ?_⟩⟩
  rw [hheld'.valueAt_eq hr]
  exact congrArg some (hpairs _ (List.mem_map.2 ⟨r, hr, rfl⟩)).symm

/-- Data that is renamed in all fields that are read, with the same subjects missing, matches. -/
theorem matchesAll_of_renamed {ρ : Renaming} (hmissing : ∀ name ∈ request.witnesses,
      request.context.Missing name ↔ (request.rebind w).context.Missing name)
    (hheld : ∀ r ∈ request.reads, ∃ l, request.context.held? .witness r = some l ∧
      (request.rebind w).context.held? .witness r = some (ρ.literal l)) :
    ∀ statement ∈ request.statement :: request.premises,
      request.context.MatchesAll w ρ statement := by
  intro statement hstatement part hpart
  have hmem : part ∈ request.parts := List.mem_flatMap.2 ⟨statement, hstatement, hpart⟩
  refine ⟨fun name hname => hmissing name (List.mem_flatMap.2 ⟨part, hmem, hname⟩), fun r hr => ?_⟩
  obtain ⟨l, hl, hl'⟩ := hheld r (List.mem_flatMap.2 ⟨part, hmem, hr⟩)
  rw [DataContext.held?_eq_some_iff.1 hl]
  exact DataContext.held?_eq_some_iff.1 hl'

/-- Compilations are indistinguishable if the data seals and unseals nothing. -/
theorem rel_of_sealed_alike (hheld : request.Held) (hheld' : (request.rebind w).Held)
    (hpattern : request.SamePattern w) (hmissing : ∀ name ∈ request.witnesses,
      request.context.Missing name ↔ (request.rebind w).context.Missing name)
    (hkind : ∀ r ∈ request.reads, ∀ l l', request.context.held? .witness r = some l →
      (request.rebind w).context.held? .witness r = some l' →
      l.type = l'.type ∧ l.isSealed = l'.isSealed) :
    Option.Rel Indistinguishable request.compile? (request.rebind w).compile? := by
  obtain ⟨ρ, hρ, hsealed, hrenamed⟩ := exists_renaming Literal.isSealed hheld hheld' hpattern hkind
  -- no gadget has to be excluded: what is sealed stays sealed
  rw [compile?_rebind hρ .all (fun g _ => g.steady_of_isSealed hsealed) request
    (matchesAll_of_renamed hmissing hrenamed) fun _ _ _ _ _ _ _ _ => trivial]
  exact rel_rename w ρ request.compile?

section

variable (haliases : ∀ name, name ∈ request.witness.keys ↔ name ∈ w.keys)

include haliases

theorem isNone_iff_of_aliases (name : String) :
    (request.witness.find? name).isNone = (w.find? name).isNone := by
  rw [Bool.eq_iff_iff, Option.isNone_iff_eq_none, Option.isNone_iff_eq_none,
    Table.find?_eq_none_iff, Table.find?_eq_none_iff, haliases]

theorem missing_iff_of_aliases (name : String) :
    request.context.Missing name ↔ (request.rebind w).context.Missing name := by
  have hempty : request.witness.isEmpty = w.isEmpty := by
    rw [Bool.eq_iff_iff, List.isEmpty_iff, List.isEmpty_iff, ← List.map_eq_nil_iff,
      ← List.map_eq_nil_iff (l := w), List.eq_nil_iff_forall_not_mem,
      List.eq_nil_iff_forall_not_mem]
    exact forall_congr' fun name => not_congr (haliases name)
  have hnone := isNone_iff_of_aliases haliases name
  unfold DataContext.Missing
  change (request.witness.find? name).isNone ∧ ¬ request.witness.isEmpty ↔
    (w.find? name).isNone ∧ ¬ w.isEmpty
  rw [hnone, hempty]

end

/-- **A compilation tells no more about witness data than its coincidence pattern.** With other
documents for the same witnesses, in which the fields that are read hold values too and are equal
where they were before, it fails in the same way or gives the same to see. Where the sources do not
fit there is nothing to see of either. -/
theorem compile_indistinguishable (request : Request) (w : Table Accessor)
    (hdocs : Documents request.witness) (hdocs' : Documents w)
    (haliases : ∀ name, name ∈ request.witness.keys ↔ name ∈ w.keys)
    (hheld : request.Held) (hheld' : (request.rebind w).Held) (hpattern : request.SamePattern w) :
    (request.Fits → ∃ outcome outcome', request.compile? = some outcome ∧
      (request.rebind w).compile? = some outcome' ∧ Indistinguishable outcome outcome') ∧
    (¬ request.Fits → request.compile? = none ∧ (request.rebind w).compile? = none) := by
  have hrel : Option.Rel Indistinguishable request.compile? (request.rebind w).compile? := by
    refine rel_of_sealed_alike hheld hheld' hpattern
      (fun name _ => missing_iff_of_aliases haliases name) ?_
    intro r _ l l' hl hl'
    obtain ⟨htype, hsealed⟩ := DataContext.held?_witness hdocs hl
    obtain ⟨htype', hsealed'⟩ := DataContext.held?_witness hdocs' hl'
    refine ⟨htype.trans htype'.symm, ?_⟩
    rw [hsealed, hsealed']
    exact isNone_iff_of_aliases haliases r.subject
  rcases exists_or_none_of_rel hrel with ⟨outcome, outcome', h, h', hsee⟩ | ⟨h, h'⟩
  · exact ⟨fun _ => ⟨outcome, outcome', h, h', hsee⟩,
      fun hfits => absurd (compile?_eq_none_iff.2 hfits) (by simp [h])⟩
  · exact ⟨fun hfits => absurd hfits (compile?_eq_none_iff.1 h), fun _ => ⟨h, h'⟩⟩

/-! ### Three readings of a meter -/

def meterSchema : Schema where
  name := "meter"
  fields := [("morning", .scalar .integer), ("noon", .scalar .integer),
    ("evening", .scalar .integer)]
  rule := none

def readings (morning noon evening : Int) : Table Accessor :=
  [("meter", .document (.object [("morning", .number (.integer morning)),
    ("noon", .number (.integer noon)), ("evening", .number (.integer evening))]))]

/-- The request to show predicates about the readings, with premises. -/
def meterRequest (witness : Table Accessor) (predicates : List Predicate)
    (premises : List (List Predicate)) : Request where
  name := "meter"
  statement := statementAbout "meter" "meter" predicates
  premises := premises.map (statementAbout "meter" "meter")
  schemas := [("meter", meterSchema)]
  witness
  disclosed := []
  cap := 20

/-- A reading lies in a range. -/
def within (reading : String) (min max : Int) : Predicate :=
  .bounds (fieldOf "meter" reading) (some (number min)) (some (number max)) noSpan

/-- Ranges for two readings. They become one if the readings are equal. -/
def overlapping : List Predicate :=
  [within "morning" 0 10, within "noon" 5 20]

/-- The rendered text, if the compilation succeeds. -/
def text? (request : Request) : Option String :=
  request.compilation?.map fun c => (render c.statement.gadgets).text

theorem compile_indistinguishable_equalReadings :
    (meterRequest (readings 7 7 1) overlapping []).text? = some "BOUND w0 i0 i1" ∧
    (meterRequest (readings 7 7 1) overlapping []).SamePattern (readings 9 9 2) ∧
    ∃ outcome outcome',
      (meterRequest (readings 7 7 1) overlapping []).compile? = some outcome ∧
      (meterRequest (readings 9 9 2) overlapping []).compile? = some outcome' ∧
      Indistinguishable outcome outcome' := by
  have hpattern : (meterRequest (readings 7 7 1) overlapping []).SamePattern
      (readings 9 9 2) := by decide +kernel
  refine ⟨by decide +kernel, hpattern, (compile_indistinguishable _ (readings 9 9 2) ?_ ?_
    (fun _ => Iff.rfl) ?_ ?_ hpattern).1 (by decide +kernel)⟩
  · exact List.forall_mem_singleton.2 ⟨_, rfl⟩
  · exact List.forall_mem_singleton.2 ⟨_, rfl⟩
  · decide +kernel
  · decide +kernel

end Request

end Attestation
