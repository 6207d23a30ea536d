import Attestation.Proofs.Exhaustion
import Attestation.Proofs.Noninterference

/-!
# With and without witness data

Those who check a proof compile without witness data: every witness value is sealed. A compilation
that succeeds has found a value in every field that is read (`Request.held_of_compile`), so two that
succeed differ by a renaming if the coincidence pattern is the same. A renaming that seals values is
steady unless a witness is compared with itself, which no rule brings about
(`KeptByRules.apart`). So compilations with and without data give the same text:
`Request.text_eq_of_samePattern`.
-/

namespace Attestation

open Syntax

/-! ## Self-comparisons -/

/-- The gadget does not compare a witness with itself. -/
def Gadget.Apart : Gadget → Prop
  | equality g => ¬ (g.left.visibility = .witness ∧ g.left.same g.right = true)
  | inequality g => ¬ (g.left.visibility = .witness ∧ g.left.same g.right = true)
  | _ => True

theorem Gadget.Apart.steady {g : Gadget} (h : g.Apart) (ρ : Renaming) : g.Steady ρ := by
  cases g with
  | equality g => exact steady_of_not_same ρ h
  | inequality g => exact steady_of_not_same ρ h
  | _ => trivial

theorem Gadget.apart_of_disclosed {x y : Variable} (hy : y.visibility = .disclosed) :
    (Gadget.equality ⟨x, y⟩).Apart := by
  rintro ⟨hx, hsame⟩
  have hid := congrArg Identity.visibility ((Variable.same_iff x y).1 hsame)
  simp only [Variable.identity_visibility] at hid
  rw [hx, hy] at hid
  cases hid

theorem Gadget.apart_of_integer? {x y : Variable} {n : Int} (hy : y.integer? = some n) :
    (Gadget.equality ⟨x, y⟩).Apart :=
  apart_of_disclosed (Variable.integer?_eq_some_iff.1 hy).1

theorem Implication.Draws.apart {matched : List Gadget} {g : Gadget} (h : Draws matched g) :
    g.Apart := by
  cases h with
  | carry hperm h =>
    obtain ⟨s, v, -, -, -, rfl⟩ := Equality.carry?_eq_some h
    trivial
  | chain hperm h =>
    obtain ⟨s, t, x, y, -, -, -, hne, rfl⟩ := Equality.chain?_eq_some h
    exact fun hsame => hne ((Variable.same_iff x y).1 hsame.2)

theorem Substitution.Makes.apart {matched new : List Gadget} (h : Makes matched new)
    (hm : ∀ m ∈ matched, m.check = .ok ()) : ∀ g ∈ new, g.Apart := by
  cases h with
  | point h =>
    obtain ⟨n, hn, -, rfl⟩ := Bounds.point?_eq_some h
    exact List.forall_mem_singleton.2 (Gadget.apart_of_integer? hn)
  | touch hperm h =>
    obtain ⟨aMin, aMax, bMin, bMax, hmeet, ⟨-, rfl⟩ | ⟨-, rfl⟩⟩ := Bounds.touch?_eq_some h
    · exact List.forall_mem_singleton.2 (Gadget.apart_of_integer? hmeet.aMax)
    · exact List.forall_mem_singleton.2 (Gadget.apart_of_integer? hmeet.bMax)
  | intersect hperm h =>
    obtain ⟨aMin, aMax, bMin, bMax, -, -, -, rfl⟩ := Bounds.intersect?_eq_some h
    exact List.forall_mem_singleton.2 trivial
  | tautology h =>
    obtain ⟨-, rfl⟩ := Equality.trivial?_eq_some h
    simp
  | distinct h =>
    obtain ⟨-, rfl⟩ := Inequality.trivial?_eq_some h
    simp
  | single h =>
    obtain ⟨e, hset, rfl⟩ := Membership.single?_eq_some h
    have hvalid := Membership.check_eq_ok_iff.1 (hm _ (List.mem_singleton_self _))
    refine List.forall_mem_singleton.2 (Gadget.apart_of_disclosed (hvalid.disclosed e ?_))
    rw [hset]
    exact List.mem_singleton_self e

/-- Rules compare no witness with itself. -/
theorem KeptByRules.apart : KeptByRules fun g => g.check = .ok () ∧ g.Apart where
  draws h hm := ⟨h.check fun m hmem => (hm m hmem).1, h.apart⟩
  makes h hm g hg := by
    have hcheck := fun m hmem => (hm m hmem).1
    exact ⟨h.check hcheck g hg, h.apart hcheck g hg⟩

/-- What can be optimized has no inequality of something with itself. -/
theorem Optimizer.not_sameOperand_of_optimize {cap : Nat} {gadgets out : List Gadget}
    (h : optimize .standard cap gadgets = .ok out) {i : Inequality}
    (hi : .inequality i ∈ gadgets) : sameOperand i.left i.right = false := by
  obtain ⟨j, hj, hpair⟩ := GadgetSet.exists_of_has_inequality (GadgetSet.has_ofList hi)
  rw [← sameOperand_eq_of_samePair hpair, Bool.eq_false_iff]
  intro hsame
  obtain ⟨error, herror⟩ := Inequality.exists_reflexive?_iff.2 hsame
  exact RuleSet.not_finds (contradiction?_of_optimize h) (List.singleton_sublist.2 hj).subperm
    (.reflexive herror)

/-! ## What success takes -/

/-- A witness variable holds what the field that its operand reads holds. -/
theorem DataContext.read?_of_quantity? {context : DataContext} {about : Option String}
    {ds : List Declaration} {operand : Operand} {i : Identity}
    (h : context.quantity? about ds operand = some i) :
    (i.visibility = .witness → ∃ r, context.read? about ds operand = some r) ∧
      ∀ r, context.read? about ds operand = some r →
        i.visibility = .witness ∧ context.held? .witness r = some i.literal := by
  cases operand with
  | literal constant span =>
    obtain ⟨l, -, rfl⟩ := Option.map_eq_some_iff.1 h
    exact ⟨fun hvis => (by cases hvis), fun r hr => (by cases hr)⟩
  | identifier name selector span =>
    obtain ⟨⟨visibility, reference⟩, hfield, h⟩ := Option.bind_eq_some_iff.1 h
    obtain ⟨l, hl, rfl⟩ := Option.map_eq_some_iff.1 h
    cases visibility with
    | witness =>
      have hread : context.read? about ds (.identifier name selector span) = some reference := by
        simp [DataContext.read?, hfield]
      refine ⟨fun _ => ⟨reference, hread⟩, fun r hr => ?_⟩
      cases hread.symm.trans hr
      exact ⟨rfl, hl⟩
    | disclosed =>
      have hread : context.read? about ds (.identifier name selector span) = none := by
        simp [DataContext.read?, hfield]
      exact ⟨fun hvis => (by cases hvis), fun r hr => (by simp [hread] at hr)⟩

theorem DataContext.subject_mem_witnesses {context : DataContext} {about : Option String}
    {statement : Statement} {r : Reference} (hr : r ∈ context.reads about statement) :
    r.subject ∈ statement.witnesses about := by
  obtain ⟨operand, -, hread⟩ := List.mem_filterMap.1 hr
  cases operand with
  | literal constant span => cases hread
  | identifier name selector span =>
    unfold DataContext.read? at hread
    dsimp only at hread
    split at hread
    case h_2 => cases hread
    case h_1 reference hfield =>
      cases hread
      obtain ⟨d, hd, hfield⟩ := Option.bind_eq_some_iff.1 hfield
      obtain ⟨schema, -, hfield⟩ := Option.bind_eq_some_iff.1 hfield
      obtain ⟨type, -, hfield⟩ := Option.map_eq_some_iff.1 hfield
      obtain ⟨hvis, rfl⟩ := Prod.mk.inj hfield
      have hname := List.find?_some hd
      refine List.mem_filterMap.2 ⟨d, List.mem_of_find?_eq_some hd, ?_⟩
      rw [if_pos hvis]
      exact congrArg some (of_decide_eq_true hname)

theorem DataContext.isNone_of_not_missing {context : DataContext} {name : String}
    (h : ¬ context.Missing name) :
    (context.witness.find? name).isNone = context.witness.isEmpty := by
  cases hempty : context.witness.isEmpty with
  | true =>
    rw [List.isEmpty_iff.1 hempty]
    rfl
  | false => exact Bool.eq_false_iff.2 fun hnone => h ⟨hnone, by simp [hempty]⟩

namespace Scope

variable {scope : Scope} {statement : Statement} {r : Resolved}

theorem not_missing_of_subject {name : String} {schema : Schema} {position : Position}
    {subject : Subject} (h : scope.subject name schema .witness position = .ok subject) :
    ¬ scope.context.Missing name := by
  intro hmissing
  have herror : scope.subject name schema .witness position = .error _ := if_pos hmissing
  rw [herror] at h
  cases h

/-- Data of all declared witnesses is supplied, or of none. -/
theorem not_missing_of_resolve (h : scope.resolve statement = .ok r) :
    ∀ name ∈ statement.witnesses scope.parent, ¬ scope.context.Missing name := by
  obtain ⟨subjects, hsubjects, -, -⟩ := resolve_eq_ok h
  intro name hname
  obtain ⟨d, hd, hd'⟩ := List.mem_filterMap.1 hname
  split_ifs at hd' with hvis
  cases hd'
  obtain ⟨entry, -, hdec⟩ := exists_of_forall₂ (declareAll_eq_ok hsubjects) hd
  obtain ⟨schema, -, hsubject⟩ := hdec.exists_schema
  rw [declaredAlias_eq_ok hdec.declaredAlias]
  rw [hvis] at hsubject
  exact not_missing_of_subject hsubject

/-- Every field that is read holds a value. -/
theorem held_of_resolve (hreg : scope.registry = .standard) (h : scope.resolve statement = .ok r) :
    ∀ ref ∈ scope.context.reads scope.parent statement,
      (scope.context.held? .witness ref).isSome = true := by
  obtain ⟨subjects, hsubjects, hgadgets⟩ := builds_of_resolve hreg h
  intro ref href
  obtain ⟨operand, hoperand, hread⟩ := List.mem_filterMap.1 href
  obtain ⟨p, hp, hoperand⟩ := List.mem_flatMap.1 hoperand
  obtain ⟨g, -, hbuilds, -⟩ := exists_of_forall₂ hgadgets hp
  obtain ⟨v, hv⟩ := hbuilds.exists_read operand hoperand
  have hquantity := quantity?_of_operand hsubjects hv
  rw [((DataContext.read?_of_quantity? hquantity).2 ref hread).2]
  rfl

end Scope

/-! ## Comparisons without data -/

/-- The predicate compares a witness field with itself. -/
def Syntax.Predicate.comparesSelf (read? : Operand → Option Reference) : Predicate → Bool
  | equality left right _ => (read? left).isSome && read? left = read? right
  | inequality left right _ => (read? left).isSome && read? left = read? right
  | _ => false

namespace Scope

variable {scope : Scope} {statement : Statement} {r : Resolved}

section

variable (hsealed : scope.context.witness = []) {ds : List Declaration} {subjects : Table Subject}
  (hds : List.Forall₂ scope.Declares ds subjects)

include hsealed hds

/-- Without data, the variable of an operand that reads a witness field is this field, sealed. -/
theorem identity_of_read? {operand : Operand} {v : Variable}
    (h : scope.operand subjects operand = .ok v) {ref : Reference}
    (href : scope.context.read? scope.parent ds operand = some ref) :
    v.identity = ⟨.witness, .sealed ref⟩ := by
  obtain ⟨hvis, hheld⟩ :=
    (DataContext.read?_of_quantity? (quantity?_of_operand hds h)).2 ref href
  have hnone : scope.context.held? .witness ref = some (.sealed ref) := by
    simp [DataContext.held?, hsealed, Table.find?]
  rw [hnone] at hheld
  rw [Variable.identity, ← Variable.identity_visibility, hvis, ← Variable.identity_literal,
    ← Option.some.inj hheld]

theorem exists_read?_of_witness {operand : Operand} {v : Variable}
    (h : scope.operand subjects operand = .ok v) (hvis : v.visibility = .witness) :
    ∃ ref, scope.context.read? scope.parent ds operand = some ref ∧
      v.identity = ⟨.witness, .sealed ref⟩ := by
  obtain ⟨ref, href⟩ := (DataContext.read?_of_quantity? (quantity?_of_operand hds h)).1 hvis
  exact ⟨ref, href, identity_of_read? hsealed hds h href⟩

theorem same_iff_read?_eq {left right : Operand} {x y : Variable}
    (hx : scope.operand subjects left = .ok x) (hy : scope.operand subjects right = .ok y) :
    (x.visibility = .witness ∧ x.same y = true) ↔
      ((scope.context.read? scope.parent ds left).isSome &&
        scope.context.read? scope.parent ds left = scope.context.read? scope.parent ds right) =
          true := by
  rw [Bool.and_eq_true, Option.isSome_iff_exists, decide_eq_true_eq, Variable.same_iff]
  constructor
  · rintro ⟨hvis, hid⟩
    have hvis' : y.visibility = .witness := (congrArg Identity.visibility hid).symm.trans hvis
    obtain ⟨ref, href, hxref⟩ := exists_read?_of_witness hsealed hds hx hvis
    obtain ⟨ref', href', hyref⟩ := exists_read?_of_witness hsealed hds hy hvis'
    have hrefs : ref = ref' := by
      simpa using congrArg Identity.literal (hxref.symm.trans (hid.trans hyref))
    exact ⟨⟨ref, href⟩, by rw [href, href', hrefs]⟩
  · rintro ⟨⟨ref, href⟩, hsame⟩
    have hxref := identity_of_read? hsealed hds hx href
    have hyref := identity_of_read? hsealed hds hy (hsame ▸ href)
    exact ⟨congrArg Identity.visibility hxref, hxref.trans hyref.symm⟩

/-- Without data, gadgets compare a witness with itself exactly when predicates do. -/
theorem Builds.apart_iff {p : Predicate} {g : Gadget} (h : Builds (scope.operand subjects) p g) :
    g.Apart ↔ p.comparesSelf (scope.context.read? scope.parent ds) = false := by
  cases h with
  | equality hl hr =>
    rw [← Bool.not_eq_true]
    exact not_congr (same_iff_read?_eq hsealed hds hl hr)
  | inequality hl hr =>
    rw [← Bool.not_eq_true]
    exact not_congr (same_iff_read?_eq hsealed hds hl hr)
  | _ => exact iff_of_true trivial rfl

end

theorem apart_of_resolve (hsealed : scope.context.witness = []) (hreg : scope.registry = .standard)
    (h : scope.resolve statement = .ok r) (hfree : ∀ p ∈ statement.predicates,
      p.comparesSelf (scope.context.read? scope.parent statement.subjects) = false) :
    ∀ g ∈ r.gadgets, g.Apart := by
  obtain ⟨subjects, hsubjects, hgadgets⟩ := builds_of_resolve hreg h
  intro g hg
  obtain ⟨p, hp, hbuilds, -⟩ := exists_of_forall₂ hgadgets.flip hg
  exact (hbuilds.apart_iff hsealed hsubjects).2 (hfree p hp)

end Scope

/-! ## Requests -/

namespace Request

variable {request : Request} {c : Compilation}

/-- A compilation that succeeds has the data of every witness, or of none. -/
theorem not_missing_of_compile (h : request.compile? = some (.ok c)) :
    ∀ name ∈ request.witnesses, ¬ request.context.Missing name := by
  obtain ⟨ruleSources, hparts⟩ := parts_of_compile h
  intro name hname
  obtain ⟨part, hpart, hname⟩ := List.mem_flatMap.1 hname
  obtain ⟨source, resolved, -, -, hresolved, -⟩ := hparts part hpart
  exact Scope.not_missing_of_resolve hresolved name hname

/-- **A compilation that succeeds has found a value in every field that is read.** -/
theorem held_of_compile (h : request.compile? = some (.ok c)) : request.Held := by
  obtain ⟨ruleSources, hparts⟩ := parts_of_compile h
  intro r hr
  obtain ⟨part, hpart, hr⟩ := List.mem_flatMap.1 hr
  obtain ⟨source, resolved, -, -, hresolved, -⟩ := hparts part hpart
  exact Scope.held_of_resolve rfl hresolved r hr

/-- No predicate of a kind compares a witness field with itself. -/
def SelfFree (request : Request) (kind : PredicateKind) : Prop :=
  ∀ part ∈ request.parts, ∀ p ∈ part.2.predicates, p.kind = kind →
    p.comparesSelf (request.context.read? part.1 part.2.subjects) = false

instance (request : Request) (kind : PredicateKind) : Decidable (request.SelfFree kind) :=
  inferInstanceAs (Decidable (∀ part ∈ request.parts, ∀ p ∈ part.2.predicates, _ → _))

/-- Without data, a compilation that succeeds has no inequality of a field with itself. -/
theorem selfFree_inequality_of_compile (hsealed : request.witness = [])
    (h : request.compile? = some (.ok c)) : request.SelfFree .inequality := by
  obtain ⟨ruleSources, hparts⟩ := parts_of_compile h
  intro part hpart p hp hkind
  obtain ⟨source, resolved, gadgets, out, hresolved, hsub, hout⟩ := hparts part hpart
  obtain ⟨subjects, hsubjects, hgadgets⟩ := Scope.builds_of_resolve rfl hresolved
  obtain ⟨g, hg, hbuilds, -⟩ := exists_of_forall₂ hgadgets hp
  refine (hbuilds.apart_iff hsealed hsubjects).1 ?_
  cases hbuilds with
  | inequality hl hr =>
    rintro ⟨hvis, hsame⟩
    obtain ⟨ref, -, hid⟩ := Scope.exists_read?_of_witness hsealed hsubjects hl hvis
    refine absurd (Optimizer.not_sameOperand_of_optimize hout (hsub hg)) ?_
    rw [Bool.not_eq_false, sameOperand_iff, hid]
    exact ⟨hid.symm.trans ((Variable.same_iff _ _).1 hsame), .inr rfl⟩
  | _ => cases hkind

theorem subject_mem_witnesses {r : Reference} (hr : r ∈ request.reads) :
    r.subject ∈ request.witnesses := by
  obtain ⟨part, hpart, hr⟩ := List.mem_flatMap.1 hr
  exact List.mem_flatMap.2 ⟨part, hpart, DataContext.subject_mem_witnesses hr⟩

/-- In a compilation that succeeds all values are known, or with no data all are sealed. -/
theorem held?_of_compile (hdocs : Documents request.witness) (h : request.compile? = some (.ok c))
    {r : Reference} (hr : r ∈ request.reads) {l : Literal}
    (hl : request.context.held? .witness r = some l) :
    l.type = r.type ∧ l.isSealed = request.witness.isEmpty := by
  obtain ⟨htype, hsealed⟩ := DataContext.held?_witness hdocs hl
  refine ⟨htype, hsealed.trans ?_⟩
  exact DataContext.isNone_of_not_missing
    (not_missing_of_compile h r.subject (subject_mem_witnesses hr))

theorem SamePattern.symm {w : Table Accessor} (h : request.SamePattern w) :
    (request.rebind w).SamePattern request.witness :=
  fun r hr r' hr' => (h r hr r' hr').symm

/-- Without data, gadgets compare a witness with itself only if predicates do. -/
theorem yields_apart (hsealed : request.witness = []) (heq : request.SelfFree .equality)
    (hne : request.SelfFree .inequality) :
    ∀ statement ∈ request.statement :: request.premises, ∀ ruleSources,
      Yields { request.context with ruleSources } (fun g => g.check = .ok () ∧ g.Apart)
        statement := by
  intro statement hstatement ruleSources number r hr g hg
  obtain ⟨part, hpart, source, resolved, hresolved, hg⟩ :=
    (Scope.parts_of_resolveWithRules rfl hr).2 g hg
  have hmem : part ∈ request.parts := List.mem_flatMap.2 ⟨statement, hstatement, hpart⟩
  refine ⟨Scope.check_of_resolve rfl hresolved g hg,
    Scope.apart_of_resolve hsealed rfl hresolved (fun p hp => ?_) g hg⟩
  cases p with
  | equality => exact heq part hmem _ hp rfl
  | inequality => exact hne part hmem _ hp rfl
  | _ => rfl

/-- Data can be supplied where there was none, if no field is compared with itself. -/
theorem indistinguishable_of_unsealed {w : Table Accessor} (hsealed : request.witness = [])
    (hdocs : Documents w) (hpattern : request.SamePattern w) (heq : request.SelfFree .equality)
    {c' : Compilation} (h : request.compile? = some (.ok c))
    (h' : (request.rebind w).compile? = some (.ok c')) : Indistinguishable (.ok c) (.ok c') := by
  have hkind : ∀ r ∈ request.reads, ∀ l l', request.context.held? .witness r = some l →
      (request.rebind w).context.held? .witness r = some l' → l.type = l'.type ∧ () = () := by
    intro r hr l l' hl hl'
    have hdocs₀ : Documents request.witness := by simp [Documents, hsealed]
    exact ⟨(held?_of_compile hdocs₀ h hr hl).1.trans (held?_of_compile hdocs h' hr hl').1.symm, rfl⟩
  obtain ⟨ρ, hρ, -, hrenamed⟩ := exists_renaming (fun _ => ()) (held_of_compile h)
    (held_of_compile h') hpattern hkind
  have hmatches := matchesAll_of_renamed (fun name hname => iff_of_false
    (not_missing_of_compile h name hname) (not_missing_of_compile h' name hname)) hrenamed
  rw [compile?_rebind hρ KeptByRules.apart (fun g hg => hg.2.steady ρ) request hmatches
    (yields_apart hsealed heq (selfFree_inequality_of_compile hsealed h)), h] at h'
  cases h'
  exact indistinguishable_rename w ρ (.ok c)

/-- **Compilations with and without witness data give the same text and disclose the same**, as do
compilations with different data, if fields that are read hold equal values in one exactly when they
do in the other. An equality of a field with itself is dropped without data, and only then: a
statement with one has to be compiled with data for both or for neither. -/
theorem text_eq_of_samePattern (request : Request) (w : Table Accessor)
    (hdocs : Documents request.witness) (hdocs' : Documents w) (hpattern : request.SamePattern w)
    (hself : (request.witness = [] ↔ w = []) ∨ request.SelfFree .equality) (c c' : Compilation)
    (h : request.compile? = some (.ok c)) (h' : (request.rebind w).compile? = some (.ok c')) :
    (render c.statement.gadgets).text = (render c'.statement.gadgets).text ∧
      (render c.statement.gadgets).disclosed = (render c'.statement.gadgets).disclosed := by
  have hboth : Indistinguishable (.ok c) (.ok c') := by
    by_cases hempty : request.witness = [] ↔ w = []
    · have hrel := rel_of_sealed_alike (held_of_compile h) (held_of_compile h') hpattern
        (fun name hname => iff_of_false (not_missing_of_compile h name hname)
          (not_missing_of_compile h' name hname)) fun r hr l l' hl hl' => by
        obtain ⟨htype, hsealed⟩ := held?_of_compile hdocs h hr hl
        obtain ⟨htype', hsealed'⟩ := held?_of_compile hdocs' h' hr hl'
        refine ⟨htype.trans htype'.symm, ?_⟩
        rw [hsealed, hsealed', Bool.eq_iff_iff, List.isEmpty_iff, List.isEmpty_iff, hempty]
        rfl
      rw [h, h'] at hrel
      exact Option.rel_some_some.1 hrel
    · have heq := hself.resolve_left hempty
      by_cases hsealed : request.witness = []
      · exact indistinguishable_of_unsealed hsealed hdocs' hpattern heq h h'
      · have hw : w = [] := by tauto
        exact (indistinguishable_of_unsealed hw hdocs hpattern.symm heq h' h).symm
  cases hboth with
  | ok text disclosed => exact ⟨text, disclosed⟩

/-! ### Readings of a meter with and without data -/

/-- An equality of two readings. -/
def equalReadings (left right : String) : Predicate :=
  .equality (fieldOf "meter" left) (fieldOf "meter" right) noSpan

/-- All readings are equal, and two of them are in ranges. -/
def linkedReadings : List Predicate :=
  equalReadings "morning" "noon" :: equalReadings "evening" "noon" :: overlapping

theorem exists_compile_of_text? {text : String} (h : request.text? = some text) :
    ∃ c, request.compile? = some (.ok c) ∧ (render c.statement.gadgets).text = text := by
  obtain ⟨c, hc, htext⟩ := Option.map_eq_some_iff.1 h
  exact ⟨c, compilation?_eq_some_iff.1 hc, htext⟩

theorem text_eq_of_samePattern_linkedReadings :
    ∃ c c',
      (meterRequest (readings 7 8 9) linkedReadings [[within "evening" 5 10]]).compile? =
        some (.ok c) ∧
      (meterRequest [] linkedReadings [[within "evening" 5 10]]).compile? = some (.ok c') ∧
      (render c.statement.gadgets).text =
        "EQUALS w0 w1\nEQUALS w2 w1\nEQUALS w0 w2\nBOUND w0 i0 i1\nBOUND w1 i0 i1" ∧
      (render c.statement.gadgets).text = (render c'.statement.gadgets).text ∧
      (render c.statement.gadgets).disclosed = (render c'.statement.gadgets).disclosed := by
  have htext : (meterRequest (readings 7 8 9) linkedReadings [[within "evening" 5 10]]).text? =
      some "EQUALS w0 w1\nEQUALS w2 w1\nEQUALS w0 w2\nBOUND w0 i0 i1\nBOUND w1 i0 i1" := by
    decide +kernel
  have htext' : (meterRequest [] linkedReadings [[within "evening" 5 10]]).text? =
      some "EQUALS w0 w1\nEQUALS w2 w1\nEQUALS w0 w2\nBOUND w0 i0 i1\nBOUND w1 i0 i1" := by
    decide +kernel
  obtain ⟨c, hc, hrendered⟩ := exists_compile_of_text? htext
  obtain ⟨c', hc', -⟩ := exists_compile_of_text? htext'
  refine ⟨c, c', hc, hc', hrendered, text_eq_of_samePattern _ [] ?_ ?_ ?_ (.inr ?_) c c' hc hc'⟩
  · exact List.forall_mem_singleton.2 ⟨_, rfl⟩
  · exact List.forall_mem_nil _
  · decide +kernel
  · decide +kernel

/-- All readings are 5, in more words than it takes. One of them is that the morning's reading is
what it is. -/
def allFive : List Predicate :=
  [.equality (fieldOf "meter" "evening") (number 5) noSpan,
    .membership (fieldOf "meter" "morning") [number 5] noSpan, within "noon" 3 7,
    .equality (fieldOf "meter" "noon") (number 5) noSpan, within "evening" 2 5,
    within "morning" 5 7, equalReadings "morning" "morning"]

/-- **The text depends on witness data.** Ranges for readings that happen to be equal become one. An
equality of a reading with itself is dropped without data, and then the rules come to apply in
another order: in a premise it decides whether the premise proves a range. -/
theorem text_depends_on_readings :
    ((meterRequest (readings 7 7 1) overlapping []).text? = some "BOUND w0 i0 i1" ∧
      (meterRequest [] overlapping []).text? = some "BOUND w0 i0 i1\nBOUND w1 i2 i3") ∧
    ((meterRequest (readings 7 8 9) [equalReadings "noon" "noon"] []).text? = some "EQUALS w0 w0" ∧
      (meterRequest [] [equalReadings "noon" "noon"] []).text? = some "") ∧
    (meterRequest (readings 7 8 9) [within "evening" 3 5] [allFive]).text? = some "" ∧
      (meterRequest [] [within "evening" 3 5] [allFive]).text? = some "BOUND w0 i0 i1" := by
  refine ⟨⟨?_, ?_⟩, ⟨?_, ?_⟩, ?_, ?_⟩ <;> decide +kernel

end Request

end Attestation
