import Attestation.Proofs.AcceptedForms

/-!
# Documents that are laid out as declared

A schema reads a selector segment by segment: the name of a field where an object is declared, a
position where a list is declared. `Schema.part?` follows a document in the same way. An accessor
does not know the schema. It takes each segment that reads as a number for a position, and where it
meets an object it looks for a field named by the decimal text of that position. This is the field
the schema means as long as the name is this very text (`IsPlain`). A field may have another name
that reads as a number, such as `007`, and then the accessor passes it by, or finds another field
in its place (`Accessor.get_agent_ne`).

So accessor and schema agree on all documents that are laid out as declared exactly if the names on
the way are plain: `Accessor.get_eq_ok_iff_isPlain`.
-/

namespace Attestation

open Text

/-- A name that reads as a position is the decimal text of this position. -/
def IsPlain (name : String) : Prop :=
  ∀ n ∈ Decimal.readIndex? name, Decimal.ofNat n = name

instance : DecidablePred IsPlain := fun name =>
  inferInstanceAs (Decidable (∀ n ∈ Decimal.readIndex? name, Decimal.ofNat n = name))

namespace FieldType

/-- The part of a document that segments lead to, each read as declared: as the name of a field in
an object, as a position in a list. -/
def part? : FieldType → List String → Json → Option Json
  | _, [], document => some document
  | .object declared, name :: rest, .object fields =>
    (Table.find? name declared).bind fun field =>
      (Table.find? name fields).bind fun content => field.part? rest content
  | .list element, segment :: rest, .array items =>
    (Decimal.readIndex? segment).bind fun position =>
      items[position]?.bind fun content => element.part? rest content
  | _, _, _ => none

/-- The segments that are read as names of fields. -/
def fieldNames : FieldType → List String → List String
  | .object declared, name :: rest =>
    name :: ((Table.find? name declared).map (·.fieldNames rest)).getD []
  | .list element, _ :: rest => element.fieldNames rest
  | _, _ => []

variable {declared found : FieldType} {segments : List String} {document leaf : Json}

/-! ## Plain names -/

theorem step_of_readIndex? {segment : String} {n : Nat}
    (h : Decimal.readIndex? segment = some n) : Selector.step segment = .index n := by
  simp [Selector.step, h]

/-- A plain name leads an accessor to the field of that name. -/
theorem follow?_object_step {name : String} (h : IsPlain name) (fields : List (String × Json))
    (rest : List Step) :
    (Json.object fields).follow? (Selector.step name :: rest) =
      (Table.find? name fields).bind (·.follow? rest) := by
  cases hindex : Decimal.readIndex? name with
  | none => simp [Selector.step, hindex, Json.follow?]
  | some n => rw [step_of_readIndex? hindex, Json.follow?, h n hindex]

/-- **Where names are plain, steps lead where the declaration says.** -/
theorem follow?_of_part? (hplain : ∀ name ∈ declared.fieldNames segments, IsPlain name)
    (h : declared.part? segments document = some leaf) :
    document.follow? (segments.map Selector.step) = some leaf := by
  induction segments generalizing declared document with
  | nil =>
    rw [part?] at h
    rw [List.map_nil, Json.follow?, h]
  | cons segment rest ih =>
    cases declared with
    | scalar type => cases h
    | object fields =>
      cases document with
      | object contents =>
        rw [part?] at h
        obtain ⟨field, hfield, h⟩ := Option.bind_eq_some_iff.1 h
        obtain ⟨content, hcontent, h⟩ := Option.bind_eq_some_iff.1 h
        simp only [fieldNames, hfield, Option.map_some, Option.getD_some,
          List.forall_mem_cons] at hplain
        rw [List.map_cons, follow?_object_step hplain.1, hcontent]
        exact ih hplain.2 h
      | _ => cases h
    | list element =>
      cases document with
      | array items =>
        rw [part?] at h
        obtain ⟨position, hposition, h⟩ := Option.bind_eq_some_iff.1 h
        obtain ⟨content, hcontent, h⟩ := Option.bind_eq_some_iff.1 h
        rw [List.map_cons, step_of_readIndex? hposition, Json.follow?, hcontent]
        exact ih hplain h
      | _ => cases h

/-! ## Other names

A document with nothing but what segments lead to shows where an accessor goes astray. -/

/-- The document that has a part where segments lead, and nothing else. -/
def sample (leaf : Json) : FieldType → List String → Json
  | _, [] => leaf
  | .object declared, name :: rest =>
    .object [(name, ((Table.find? name declared).map (·.sample leaf rest)).getD .null)]
  | .list element, segment :: rest =>
    .array (List.replicate ((Decimal.readIndex? segment).getD 0 + 1) (element.sample leaf rest))
  | .scalar _, _ :: _ => .null

theorem part?_sample (h : declared.follow? segments = some found) (leaf : Json) :
    declared.part? segments (declared.sample leaf segments) = some leaf := by
  induction segments generalizing declared with
  | nil => rw [part?, sample]
  | cons segment rest ih =>
    cases declared with
    | scalar type => cases h
    | object fields =>
      rw [follow?] at h
      obtain ⟨field, hfield, h⟩ := Option.bind_eq_some_iff.1 h
      simp [part?, sample, hfield, Table.find?, ih h]
    | list element =>
      rw [follow?] at h
      split_ifs at h with hindex
      obtain ⟨n, hn⟩ := Option.isSome_iff_exists.1 hindex
      simp [part?, sample, hn, ih h]

/-- An accessor finds the part of a sample only under plain names. -/
theorem isPlain_of_follow?_sample (h : declared.follow? segments = some found)
    (hsample : (declared.sample leaf segments).follow? (segments.map Selector.step) ≠ none) :
    ∀ name ∈ declared.fieldNames segments, IsPlain name := by
  induction segments generalizing declared with
  | nil => cases declared <;> simp [fieldNames]
  | cons segment rest ih =>
    cases declared with
    | scalar type => cases h
    | object fields =>
      rw [follow?] at h
      obtain ⟨field, hfield, h⟩ := Option.bind_eq_some_iff.1 h
      have hplain : IsPlain segment := by
        intro n hn
        rw [List.map_cons, step_of_readIndex? hn, sample, Json.follow?] at hsample
        by_contra hne
        simp [Table.find?, Ne.symm hne] at hsample
      rw [List.map_cons, sample, follow?_object_step hplain] at hsample
      simp only [hfield, Table.find?, if_true, Option.map_some, Option.getD_some,
        Option.bind_some] at hsample
      simp only [fieldNames, hfield, Option.map_some, Option.getD_some, List.forall_mem_cons]
      exact ⟨hplain, ih h hsample⟩
    | list element =>
      rw [follow?] at h
      split_ifs at h with hindex
      obtain ⟨n, hn⟩ := Option.isSome_iff_exists.1 hindex
      rw [List.map_cons, step_of_readIndex? hn, sample, Json.follow?, hn] at hsample
      have hitem : (List.replicate (n + 1) (element.sample leaf rest))[n]? =
          some (element.sample leaf rest) := by simp
      rw [Option.getD_some, hitem] at hsample
      exact ih h hsample

end FieldType

/-! ## Schemas and accessors -/

namespace Schema

/-- The part of a document that a selector leads to, each segment read as the schema declares it. -/
def part? (schema : Schema) (selector : Selector) (document : Json) : Option Json :=
  (FieldType.object schema.fields).part? selector.segments document

/-- The segments of a selector that the schema reads as names of fields. -/
def fieldNames (schema : Schema) (selector : Selector) : List String :=
  (FieldType.object schema.fields).fieldNames selector.segments

theorem follow?_of_fieldType {schema : Schema} {selector : Selector} {type : DataType}
    (h : schema.fieldType selector = .ok type) :
    (FieldType.object schema.fields).follow? selector.segments = some (.scalar type) := by
  unfold fieldType at h
  dsimp only at h
  split at h
  case h_2 declared hdeclared =>
    cases h
    cases hsegments : selector.segments with
    | nil => simp [hsegments] at hdeclared
    | cons first rest => simpa [hsegments, FieldType.follow?] using hdeclared
  all_goals cases h

end Schema

/-- There is a way to write some value of each type. -/
theorem Json.exists_denotes (type : DataType) : ∃ leaf value, Json.Denotes leaf type value := by
  cases type with
  | integer => exact ⟨_, _, .number 0⟩
  | text => exact ⟨_, _, .text ""⟩
  | bytes => exact ⟨_, _, .bytes (.inl rfl) (by rfl : "0x".toList = '0' :: 'x' :: []) .nil⟩
  | boolean => exact ⟨_, _, .boolean true⟩

namespace Accessor

/-- An accessor gives the value that is written where the steps of a selector lead. -/
theorem get_document_eq_ok_iff {root : Json} {selector : Selector} {type : DataType}
    {value : Literal} : (document root).get selector type = .ok value ↔
      ∃ leaf, root.follow? selector.steps = some leaf ∧ leaf.Denotes type value := by
  simp only [get, stored?]
  cases hfound : root.follow? selector.steps with
  | none => simp
  | some leaf =>
    cases leaf with
    | null =>
      refine iff_of_false (by simp) ?_
      rintro ⟨_, ⟨⟩, ⟨⟩⟩
    | _ => simp [read_eq_ok_iff]

/-- **Accessor and schema agree exactly where names are plain.** Let a schema declare a type for a
selector. An accessor gives, of every document that is laid out as declared along the selector, the
value that is written at its end, if and only if each segment that names a field is plain. -/
theorem get_eq_ok_iff_isPlain (schema : Schema) (selector : Selector) (type : DataType)
    (h : schema.fieldType selector = .ok type) :
    (∀ root leaf value, schema.part? selector root = some leaf → leaf.Denotes type value →
      (document root).get selector type = .ok value) ↔
    ∀ name ∈ schema.fieldNames selector, IsPlain name := by
  have hfollow := Schema.follow?_of_fieldType h
  constructor
  · intro hget
    obtain ⟨leaf, value, hvalue⟩ := Json.exists_denotes type
    obtain ⟨_, hsample, -⟩ := get_document_eq_ok_iff.1
      (hget _ leaf value (FieldType.part?_sample hfollow leaf) hvalue)
    have hfound : ((FieldType.object schema.fields).sample leaf selector.segments).follow?
        selector.steps ≠ none := hsample ▸ Option.some_ne_none _
    exact FieldType.isPlain_of_follow?_sample hfollow hfound
  · intro hplain root leaf value hpart hvalue
    exact get_document_eq_ok_iff.2 ⟨leaf, FieldType.follow?_of_part? hplain hpart, hvalue⟩

/-- A journey, whose stages each have a key stored under a number. -/
def journeySchema : Schema where
  name := "journey"
  fields := [("stages", .list (.object [("7", .scalar .bytes)]))]
  rule := none

/-- Two stages, of which the second has a key. -/
def journey : Json :=
  .object [("stages", .array [.object [], .object [("7", .string "0XaB")]])]

theorem get_eq_ok_iff_isPlain_journey :
    let key : Selector := ⟨["stages", "+01", "7"]⟩
    journeySchema.fieldType key = .ok .bytes ∧
    (∀ name ∈ journeySchema.fieldNames key, IsPlain name) ∧
    journeySchema.part? key journey = some (.string "0XaB") ∧
    Json.Denotes (.string "0XaB") .bytes (.bytes [0xab]) ∧
    (document journey).get key .bytes = .ok (.bytes [0xab]) := by
  intro key
  have htype : journeySchema.fieldType key = .ok .bytes := by decide +kernel
  have hplain : ∀ name ∈ journeySchema.fieldNames key, IsPlain name := by decide +kernel
  have hpart : journeySchema.part? key journey = some (.string "0XaB") := by rfl
  have hkey : Json.Denotes (.string "0XaB") .bytes (.bytes [0xab]) :=
    .bytes (.inr rfl) (by rfl : "0XaB".toList = _) (.cons (h := 10) (l := 11) rfl rfl .nil)
  exact ⟨htype, hplain, hpart, hkey,
    (get_eq_ok_iff_isPlain journeySchema key .bytes htype).2 hplain journey _ _ hpart hkey⟩

/-! ### An agent

Of two fields with names that read as the same number, an accessor finds the one with the shorter
name for both. -/

/-- An agent has fields of both names. -/
def agentSchema : Schema where
  name := "agent"
  fields := [("007", .scalar .integer), ("7", .scalar .integer)]
  rule := none

/-- What is stored under the two names differs. -/
def agent : Json :=
  .object [("007", .number (.integer 1)), ("7", .number (.integer 2))]

/-- **A name that is not plain leads to another field**, or to none. -/
theorem get_agent_ne :
    agentSchema.fieldType ⟨["007"]⟩ = .ok .integer ∧
    agentSchema.part? ⟨["007"]⟩ agent = some (.number (.integer 1)) ∧
    Json.Denotes (.number (.integer 1)) .integer (.integer 1) ∧
    (document agent).get ⟨["007"]⟩ .integer = .ok (.integer 2) ∧
    agentSchema.part? ⟨["007"]⟩ (.object [("007", .number (.integer 1))]) =
      some (.number (.integer 1)) ∧
    (document (.object [("007", .number (.integer 1))])).get ⟨["007"]⟩ .integer =
      .error (.missingEntry ⟨["007"]⟩) := by
  refine ⟨by decide +kernel, by rfl, .number 1, by decide +kernel, by rfl, by decide +kernel⟩

end Accessor

end Attestation
