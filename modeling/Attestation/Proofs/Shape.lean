import Attestation.Data.Subject
import Attestation.Proofs.Outcome

/-!
# Errors tell no more than the shape of data

Two documents have one shape if they differ in nothing but the strings, numbers and truth values they
hold (`Json.Alike`). Steps lead to parts of one shape, or nowhere, in both (`Json.Alike.follow?`). A
part may be refused for what it holds, but the reason that is given depends on its kind alone
(`Accessor.refusal`): the errors of the readers, which quote what they were given, are not passed on.
So reading from a subject either fails in the same way whatever the data holds, or there is one error
it may fail with, and whether it does is all that can be told (`Subject.resolve_of_alike`).
-/

namespace Attestation

theorem rel_getElem?_of_forall₂ {α β : Type} {R : α → β → Prop} {l : List α} {l' : List β}
    (h : List.Forall₂ R l l') (i : Nat) : Option.Rel R l[i]? l'[i]? := by
  induction h generalizing i with
  | nil => exact .none
  | cons h _ ih =>
    cases i with
    | zero => exact .some h
    | succ i => simpa using ih i

theorem rel_bind {α β γ δ : Type} {R : α → β → Prop} {S : γ → δ → Prop} {x : Option α}
    {y : Option β} {f : α → Option γ} {g : β → Option δ} (h : Option.Rel R x y)
    (hfg : ∀ a b, R a b → Option.Rel S (f a) (g b)) : Option.Rel S (x.bind f) (y.bind g) := by
  cases h with
  | none => exact .none
  | some h => exact hfg _ _ h

/-! ## Documents -/

namespace Json

/-- Documents of one shape: of the same kind everywhere, with the same fields in objects and as many
items in arrays. Strings, numbers and truth values may differ. -/
inductive Alike : Json → Json → Prop
  | null : Alike .null .null
  | boolean (a b : Bool) : Alike (.boolean a) (.boolean b)
  | number (a b : Number) : Alike (.number a) (.number b)
  | string (a b : String) : Alike (.string a) (.string b)
  | array {items others : List Json} (h : List.Forall₂ Alike items others) :
      Alike (.array items) (.array others)
  | object {fields others : List (String × Json)}
      (h : ∀ name, Option.Rel Alike (Table.find? name fields) (Table.find? name others)) :
      Alike (.object fields) (.object others)

variable {document other : Json}

/-- **Steps lead to parts of one shape, or nowhere in both.** -/
theorem Alike.follow? (h : document.Alike other) (steps : List Step) :
    Option.Rel Alike (document.follow? steps) (other.follow? steps) := by
  induction steps generalizing document other with
  | nil => simpa only [Json.follow?] using .some h
  | cons step rest ih =>
    cases h with
    | array h =>
      cases step with
      | field name => exact .none
      | index position =>
        simp only [Json.follow?]
        exact rel_bind (rel_getElem?_of_forall₂ h position) fun _ _ => ih
    | object h =>
      cases step with
      | field name =>
        simp only [Json.follow?]
        exact rel_bind (h name) fun _ _ => ih
      | index position =>
        simp only [Json.follow?]
        exact rel_bind (h _) fun _ _ => ih
    | _ => cases step <;> exact .none

end Json

/-! ## Accessors -/

namespace Accessor

variable {selector : Selector} {type : DataType} {fault : AccessFault}

theorem stored?_of_alike {root other : Json} (h : root.Alike other) (selector : Selector) :
    Option.Rel Json.Alike (stored? root selector) (stored? other selector) := by
  unfold stored?
  have hfound := h.follow? selector.steps
  generalize root.follow? selector.steps = found at hfound ⊢
  generalize other.follow? selector.steps = found' at hfound ⊢
  cases hfound with
  | none => exact .none
  | some h =>
    cases h with
    | null => exact .none
    | boolean a b => exact .some (.boolean a b)
    | number a b => exact .some (.number a b)
    | string a b => exact .some (.string a b)
    | array h => exact .some (.array h)
    | object h => exact .some (.object h)

/-- The one fault there may be with what is stored at a selector. -/
def refusal (selector : Selector) : DataType → Json → AccessFault
  | .integer, .number _ => .invalidValue selector "not an integer"
  | .bytes, .string _ => .invalidValue selector "not a 0x-prefixed hex string"
  | type, entry => .typeMismatch selector type entry.kindName

theorem refusal_of_alike {entry other : Json} (h : entry.Alike other) (selector : Selector)
    (type : DataType) : refusal selector type entry = refusal selector type other := by
  cases h <;> cases type <;> rfl

theorem eq_refusal_of_read {entry : Json} (h : read selector type entry = .error fault) :
    fault = refusal selector type entry := by
  unfold read at h
  split at h
  case h_3 =>
    split at h <;> cases h
    rfl
  case h_5 =>
    split at h <;> cases h
    rfl
  case h_7 hinteger hfraction hdecimal htext hhex hboolean =>
    cases h
    cases type with
    | integer =>
      cases entry with
      | number value =>
        cases value with
        | integer n => exact absurd rfl (hinteger n rfl)
        | fraction mantissa exponent => exact absurd rfl (hfraction mantissa exponent rfl)
      | _ => rfl
    | bytes =>
      cases entry with
      | string text => exact absurd rfl (hhex text rfl)
      | _ => rfl
    | _ => rfl
  all_goals
    cases h
  rfl

/-- Of documents of one shape an accessor misses the same things, and what it finds it can refuse for
one and the same reason only. -/
theorem get_of_alike {root other : Json} (h : root.Alike other) (selector : Selector)
    (type : DataType) :
    ((document root).get selector type = .error (.missingEntry selector) ∧
      (document other).get selector type = .error (.missingEntry selector)) ∨
    ∃ entry, (∀ fault, (document root).get selector type = .error fault →
        fault = refusal selector type entry) ∧
      ∀ fault, (document other).get selector type = .error fault →
        fault = refusal selector type entry := by
  unfold get
  dsimp only
  have hstored := stored?_of_alike h selector
  generalize stored? root selector = stored at hstored ⊢
  generalize stored? other selector = stored' at hstored ⊢
  cases hstored with
  | none => exact .inl ⟨rfl, rfl⟩
  | @some entry entry' hentry =>
    refine .inr ⟨entry, fun fault => eq_refusal_of_read, fun fault hfault => ?_⟩
    rw [refusal_of_alike hentry]
    exact eq_refusal_of_read hfault

end Accessor

/-! ## Subjects -/

namespace Subject

theorem kindOfFault_refusal (selector : Selector) (type : DataType) (entry : Json) :
    kindOfFault (Accessor.refusal selector type entry) ≠ .missingEntry ∧
      kindOfFault (Accessor.refusal selector type entry) ≠ .witnessExposure := by
  unfold Accessor.refusal
  split <;> exact ⟨nofun, nofun⟩

/-- A subject that gives nothing away fails exactly where the look-up does. -/
theorem resolve_eq_error_iff {subject : Subject} {selector : Selector} {written : Position}
    {e : Diagnostic} (h : subject.exposes selector = false) :
    subject.resolve selector written = .error e ↔
      ∃ fault, subject.lookup selector = .error fault ∧ subject.accessError written fault = e := by
  rw [resolve, h, if_neg Bool.false_ne_true]
  cases subject.lookup selector <;> simp

theorem lookup_eq_error_iff {subject : Subject} {selector : Selector} {type : DataType}
    {fault : AccessFault} (h : subject.schema.fieldType selector = .ok type) :
    subject.lookup selector = .error fault ↔ subject.accessor.get selector type = .error fault := by
  rw [lookup, h]
  change (subject.accessor.get selector type >>= fun literal => .ok (type, literal)) = _ ↔ _
  rw [bind_eq_error_iff]
  simp

variable (name : String) (schema : Schema) (metadata : Option Accessor) (position : Position)
  {data other : Json}

/-- **Reading from data of one shape fails alike**: in both cases with the same error, or there is
one error, of another kind than for what is missing or given away, that it may fail with. -/
theorem resolve_of_alike (h : data.Alike other) (selector : Selector) (written : Position) :
    let subject := witness name schema (some (.document data)) metadata position
    let twin := witness name schema (some (.document other)) metadata position
    (∃ e, subject.resolve selector written = .error e ∧ twin.resolve selector written = .error e) ∨
    ∃ error, (error.kind ≠ .missingEntry ∧ error.kind ≠ .witnessExposure) ∧
      (∀ e, subject.resolve selector written = .error e → e = error) ∧
      ∀ e, twin.resolve selector written = .error e → e = error := by
  intro subject twin
  -- Alias, schema, metadata and position are the same, so that errors of the two are.
  have herror : twin.accessError written = subject.accessError written := rfl
  have hexposed : twin.exposes selector = subject.exposes selector := rfl
  cases hexposes : subject.exposes selector with
  | true => exact .inl ⟨_, if_pos hexposes, if_pos (hexposed.trans hexposes)⟩
  | false =>
    simp only [resolve_eq_error_iff hexposes, resolve_eq_error_iff (hexposed.trans hexposes), herror]
    cases htype : schema.fieldType selector with
    | error fault =>
      have hlookup : ∀ accessor, (witness name schema (some accessor) metadata position).lookup
          selector = .error fault := fun accessor => bind_eq_error_iff.2 (.inl htype)
      exact .inl ⟨_, ⟨fault, hlookup _, rfl⟩, ⟨fault, hlookup _, rfl⟩⟩
    | ok type =>
      have hlookup : ∀ {accessor fault},
          (witness name schema (some accessor) metadata position).lookup selector = .error fault ↔
            accessor.get selector type = .error fault := lookup_eq_error_iff htype
      rcases Accessor.get_of_alike h selector type with ⟨hget, hget'⟩ | ⟨entry, hget, hget'⟩
      · exact .inl ⟨_, ⟨_, hlookup.2 hget, rfl⟩, ⟨_, hlookup.2 hget', rfl⟩⟩
      · refine .inr ⟨subject.accessError written (Accessor.refusal selector type entry),
          kindOfFault_refusal selector type entry, ?_, ?_⟩
        · rintro _ ⟨fault, hfault, rfl⟩
          rw [hget fault (hlookup.1 hfault)]
        · rintro _ ⟨fault, hfault, rfl⟩
          rw [hget' fault (hlookup.1 hfault)]

/-- **Errors tell no more than the shape of data.** Let a witness subject be bound to data in two
ways that differ in strings, numbers and truth values only. If reading from it fails in both cases,
the error is the same; and errors for what is missing or given away occur in one case exactly if they
occur in the other. -/
theorem resolve_error_of_alike (h : data.Alike other) (selector : Selector) (written : Position) :
    let subject := witness name schema (some (.document data)) metadata position
    let twin := witness name schema (some (.document other)) metadata position
    (∀ e e', subject.resolve selector written = .error e →
      twin.resolve selector written = .error e' → e = e') ∧
    ∀ e, e.kind = .missingEntry ∨ e.kind = .witnessExposure →
      (subject.resolve selector written = .error e ↔ twin.resolve selector written = .error e) := by
  intro subject twin
  rcases resolve_of_alike name schema metadata position h selector written with
    ⟨error, hsubject, htwin⟩ | ⟨error, hkind, hsubject, htwin⟩
  · refine ⟨fun e e' he he' => ?_, fun e _ => by rw [hsubject, htwin]⟩
    exact Except.error.inj ((hsubject.symm.trans he).symm.trans (htwin.symm.trans he'))
  · refine ⟨fun e e' he he' => (hsubject e he).trans (htwin e' he').symm, fun e he => ?_⟩
    have hne : e ≠ error := by
      rintro rfl
      exact he.elim hkind.1 hkind.2
    exact iff_of_false (fun hfail => hne (hsubject e hfail)) fun hfail => hne (htwin e hfail)

/-- The data of a passport that has nothing but a signature and some visas. -/
def signed (signature : String) (visas : List Json) : Json :=
  .object [("signature", .string signature), ("visas", .array visas)]

/-- A passport of which that data is known to the prover. -/
def signedPassport (data : Json) : Subject :=
  witness "pass" Schema.passport (some (.document data)) none ⟨0, 8, 12, 1⟩

theorem resolve_error_of_alike_signedPassport :
    let data := signed "0xdeadbeQf" [.number (.integer 1)]
    let other := signed "secret" [.number (.fraction 5 (-1))]
    data.Alike other ∧
    (∃ e, (signedPassport data).resolve ⟨["signature"]⟩ ⟨0, 20, 34, 2⟩ = .error e ∧
      (signedPassport other).resolve ⟨["signature"]⟩ ⟨0, 20, 34, 2⟩ = .error e) ∧
    ∃ e, e.kind = .missingEntry ∧
      (signedPassport data).resolve ⟨["lastName"]⟩ ⟨0, 20, 34, 2⟩ = .error e ∧
      (signedPassport other).resolve ⟨["lastName"]⟩ ⟨0, 20, 34, 2⟩ = .error e := by
  intro data other
  have halike : data.Alike other := by
    refine .object fun field => ?_
    simp only [Table.find?]
    split_ifs
    · exact .some (.string _ _)
    · exact .some (.array (.cons (.number _ _) .nil))
    · exact .none
  have hsame := fun selector => resolve_error_of_alike "pass" Schema.passport none ⟨0, 8, 12, 1⟩
    halike selector ⟨0, 20, 34, 2⟩
  have hhex : ∃ e ∈ failure? ((signedPassport data).resolve ⟨["signature"]⟩ ⟨0, 20, 34, 2⟩),
      e.kind = .invalidValue := by decide +kernel
  have hhex' : ∃ e ∈ failure? ((signedPassport other).resolve ⟨["signature"]⟩ ⟨0, 20, 34, 2⟩),
      e.kind = .invalidValue := by decide +kernel
  have hmissing : ∃ e ∈ failure? ((signedPassport data).resolve ⟨["lastName"]⟩ ⟨0, 20, 34, 2⟩),
      e.kind = .missingEntry := by decide +kernel
  simp only [Option.mem_def, failure?_eq_some_iff] at hhex hhex' hmissing
  obtain ⟨e, he, -⟩ := hhex
  obtain ⟨e', he', -⟩ := hhex'
  obtain ⟨m, hm, hkind⟩ := hmissing
  refine ⟨halike, ⟨e, he, ?_⟩, m, hkind, hm, ((hsame ⟨["lastName"]⟩).2 m (.inl hkind)).1 hm⟩
  rw [(hsame ⟨["signature"]⟩).1 e e' he he']
  exact he'

end Subject

end Attestation
