import Attestation.Data.Schema
import Mathlib.Data.List.Basic
import Mathlib.Tactic.SplitIfs

/-!
# Documents are read back

Statements and schemas are written as documents and read off them. What is written is read back: a
statement as it was (`Syntax.Statement.ofJson_toJson`), a schema with its fields in the order of their
names, hence the same one if declared fields are compared as maps (`Schema.ofJson_toJson`).

Records are read field by field, so each of these facts is put together from those for the fields;
trees of operands and declared fields are taken by induction. The fields of a written object are
sorted, which leaves them as they are but for their order (`Json.ofFields_eq`).
-/

namespace Attestation

open Json Json.Attempt Json.Record Text

/-! ## Integers -/

namespace Text.Decimal

theorem readDigits?_toDigits (n : Nat) : readDigits? (Nat.toDigits 10 n) = some n := by
  have hdigits : ∀ c ∈ Nat.toDigits 10 n, c.isDigit = true :=
    fun c => Nat.isDigit_of_mem_toDigits (by omega) (by omega)
  have hany : (Nat.toDigits 10 n).any (fun c => !c.isDigit) = false := by
    simpa [List.any_eq_false] using hdigits
  have hempty : (Nat.toDigits 10 n).isEmpty = false := by simp
  rw [readDigits?, hany, hempty, Nat.ofDigitChars_toDigits (by omega) (by omega)]
  rfl

theorem readGrouped?_toDigits (n : Nat) : readGrouped? (Nat.toDigits 10 n) = some n := by
  have hdigit : ∀ c ∈ Nat.toDigits 10 n, c ≠ '_' := by
    rintro c hc rfl
    cases Nat.isDigit_of_mem_toDigits (by omega) (by omega) hc
  have hhead : (Nat.toDigits 10 n).head? ≠ some '_' := fun h => hdigit _ (List.mem_of_head? h) rfl
  have hfilter : (Nat.toDigits 10 n).filter (· ≠ '_') = Nat.toDigits 10 n :=
    List.filter_eq_self.2 fun c hc => by simpa using hdigit c hc
  rw [readGrouped?, if_neg hhead, hfilter, readDigits?_toDigits]

/-- **An integer is read back from its decimal text.** -/
theorem readInteger?_ofInt (n : Int) : readInteger? (ofInt n) = some n := by
  cases n with
  | ofNat n =>
    have hdigit : ∀ c cs, Nat.toDigits 10 n = c :: cs → c.isDigit = true := fun c cs h =>
      Nat.isDigit_of_mem_toDigits (by omega) (by omega) (h ▸ List.mem_cons_self)
    have hgrouped := readGrouped?_toDigits n
    unfold readInteger?
    rw [ofInt, ofNat, String.toList_ofList]
    split
    case h_1 cs h => cases hdigit _ _ h
    case h_2 cs h => cases hdigit _ _ h
    case h_3 => rw [hgrouped, Option.map_some]
  | negSucc n =>
    have htext : (ofInt (.negSucc n)).toList = '-' :: Nat.toDigits 10 (n + 1) := by
      simp [ofInt, ofNat]
    rw [readInteger?, htext]
    simp only [readGrouped?_toDigits]
    rfl

end Text.Decimal

/-! ## Records -/

namespace Json

variable {α β : Type}

namespace Attempt

theorem map_eq_done {f : α → β} {x : Attempt α} {a : α} (h : x = done a) :
    f <$> x = done (f a) := by
  rw [h]
  rfl

theorem seq_eq_done {f : Attempt (α → β)} {x : Attempt α} {g : α → β} {a : α} (hf : f = done g)
    (hx : x = done a) : f <*> x = done (g a) := by
  rw [hf, hx]
  rfl

end Attempt

namespace Record

theorem map_snd_locate? (name : String) (entries : List (String × β)) :
    (locate? name entries).map Prod.snd = Table.find? name entries := by
  induction entries with
  | nil => rfl
  | cons entry rest ih =>
    obtain ⟨key, value⟩ := entry
    rw [locate?, Table.find?, ← ih]
    split_ifs
    · rfl
    · rw [Option.map_map]
      rfl

variable {record : Record β} {name : String} {content : β} {decode : β → Except Fault α} {a : α}

theorem fieldOr_eq_done {missing : Attempt α} (h : Table.find? name record.entries = some content)
    (hdecode : decode content = .ok a) : record.fieldOr missing name decode = .done a := by
  rw [← map_snd_locate?] at h
  obtain ⟨⟨place, content⟩, hlocate, rfl⟩ := Option.map_eq_some_iff.1 h
  rw [fieldOr, hlocate]
  dsimp only
  rw [hdecode]

theorem fieldOr_eq_missing {missing : Attempt α} (h : Table.find? name record.entries = none) :
    record.fieldOr missing name decode = missing := by
  rw [← map_snd_locate?, Option.map_eq_none_iff] at h
  rw [fieldOr, h]

theorem field_eq_done (h : Table.find? name record.entries = some content)
    (hdecode : decode content = .ok a) : record.field name decode = .done a :=
  fieldOr_eq_done h hdecode

/-- A record is read off an object if its fields are. -/
theorem finish_ofJson {names : List String} {fields : List (String × Json)}
    {attempt : Record Json → Attempt α} (h : attempt ⟨fields, false⟩ = .done a) :
    (do let record ← Record.ofJson names (.object fields); record.finish (attempt record)) =
      .ok a := by
  change (Record.mk fields false).finish (attempt ⟨fields, false⟩) = .ok a
  rw [h]
  rfl

end Record

theorem decodeList_map {toJson : α → Json} {decode : Decoder α}
    (h : ∀ a, decode (toJson a) = .ok a) (l : List α) :
    decodeList decode (.array (l.map toJson)) = .ok l := by
  change (l.map toJson).mapM decode = .ok l
  induction l with
  | nil => rfl
  | cons a l ih =>
    rw [List.map_cons, List.mapM_cons, h a, ih]
    rfl

theorem decodeString_string (text : String) : decodeString (.string text) = .ok text := rfl

theorem decodeBelow_ofNat {limit n : Nat} (h : n < limit) :
    decodeBelow limit (.ofNat n) = .ok n := by
  have hrange : 0 ≤ (n : Int) ∧ (n : Int) < limit := ⟨Int.natCast_nonneg n, Int.ofNat_lt.2 h⟩
  rw [ofNat, decodeBelow, if_pos hrange, Int.toNat_natCast]

end Json

@[simp] theorem Table.find?_cons {α : Type} (name key : String) (value : α) (rest : Table α) :
    Table.find? name ((key, value) :: rest) =
      if key = name then some value else Table.find? name rest := rfl

/-! ## Spans, selectors and names -/

theorem decodeOffset_ofNat (n : UInt32) : decodeOffset (.ofNat n.toNat) = .ok n := by
  rw [decodeOffset, decodeBelow_ofNat n.toNat_lt_size]
  exact congrArg _ UInt32.ofNat_toNat

theorem decodeLine_ofNat (n : UInt16) : decodeLine (.ofNat n.toNat) = .ok n := by
  rw [decodeLine, decodeBelow_ofNat n.toNat_lt_size]
  exact congrArg _ UInt16.ofNat_toNat

theorem Span.ofJson_toJson (span : Span) : Span.ofJson span.toJson = .ok span := by
  unfold Span.ofJson Span.toJson
  refine finish_ofJson (seq_eq_done (seq_eq_done (map_eq_done ?_) ?_) ?_)
  · exact field_eq_done (by simp) (decodeOffset_ofNat span.start)
  · exact field_eq_done (by simp) (decodeOffset_ofNat span.stop)
  · exact field_eq_done (by simp) (decodeLine_ofNat span.line)

theorem Selector.ofJson_toJson (selector : Selector) :
    Selector.ofJson selector.toJson = .ok selector := by
  rw [Selector.ofJson, Selector.toJson, decodeList_map decodeString_string]
  rfl

theorem Visibility.ofJson_toJson (visibility : Visibility) :
    Visibility.ofJson visibility.toJson = .ok visibility := by
  cases visibility <;> rfl

namespace Syntax

theorem Ident.ofJson_toJson (ident : Ident) : Ident.ofJson ident.toJson = .ok ident := by
  unfold Ident.ofJson Ident.toJson
  refine finish_ofJson (seq_eq_done (map_eq_done ?_) ?_)
  · exact field_eq_done (by simp) (decodeString_string ident.name)
  · exact field_eq_done (by simp) ident.span.ofJson_toJson

theorem Declaration.ofJson_toJson (declaration : Declaration) :
    Declaration.ofJson declaration.toJson = .ok declaration := by
  unfold Declaration.ofJson Declaration.toJson
  refine finish_ofJson (seq_eq_done (seq_eq_done (map_eq_done ?_) ?_) ?_)
  · exact field_eq_done (by simp) declaration.subject.ofJson_toJson
  · exact field_eq_done (by simp) declaration.schema.ofJson_toJson
  · exact field_eq_done (by simp) declaration.visibility.ofJson_toJson

/-! ## Operands -/

theorem Constant.ofJson_toJson (constant : Constant) :
    Constant.ofJson constant.toJson = .ok constant := by
  cases constant with
  | integer value =>
    have hvalue : decodeInteger (.string (Decimal.ofInt value)) = .ok value := by
      simp only [decodeInteger, decodeString_string, bind, Except.bind, Decimal.readInteger?_ofInt]
    change (decodeInteger _).map Constant.integer = _
    rw [hvalue]
    rfl
  | string value => rfl
  | hex digits => rfl
  | boolean value => rfl

theorem Operand.ofJson_identifier (content : Json) :
    Operand.ofJson (.object [("identifier", content)]) = decodeIdentifier content := rfl

theorem Operand.ofJson_literal (content : Json) :
    Operand.ofJson (.object [("literal", content)]) = decodeLiteral content := rfl

theorem Operand.ofJson_toJson (operand : Operand) :
    Operand.ofJson operand.toJson = .ok operand := by
  cases operand with
  | identifier subject selector span =>
    rw [toJson, ofJson_identifier, decodeIdentifier]
    refine finish_ofJson (seq_eq_done (seq_eq_done (map_eq_done ?_) ?_) ?_)
    · exact field_eq_done (by simp) (decodeString_string subject)
    · exact field_eq_done (by simp) selector.ofJson_toJson
    · exact field_eq_done (by simp) span.ofJson_toJson
  | literal constant span =>
    rw [toJson, ofJson_literal, decodeLiteral]
    refine finish_ofJson (seq_eq_done (map_eq_done ?_) ?_)
    · exact field_eq_done (by simp) constant.ofJson_toJson
    · exact field_eq_done (by simp) span.ofJson_toJson

/-- An operand that is left out is read back as such, since no operand is written as nothing. -/
theorem decodeOption_optionToJson (operand? : Option Operand) :
    decodeOption Operand.ofJson (optionToJson operand?) = .ok operand? := by
  cases operand? with
  | none => rfl
  | some operand =>
    have hsome : decodeOption Operand.ofJson operand.toJson =
        (Operand.ofJson operand.toJson).map some := by
      cases operand <;> rfl
    rw [optionToJson, hsome, operand.ofJson_toJson]
    rfl

/-! ## Trees -/

/-- **A tree of operands is read back**, node by node. -/
theorem treeOfJson_treeToJson (tree : Tree Operand) : treeOfJson (treeToJson tree) = .ok tree := by
  induction tree with
  | leaf operand =>
    rw [treeToJson, treeOfJson, if_pos rfl, operand.ofJson_toJson]
    rfl
  | branch left right ihleft ihright =>
    rw [treeToJson, treeOfJson, if_neg (by simp), if_pos rfl, branchOfJson, treesOfFields,
      treesOfFields, treesOfFields, ihleft, ihright]
    rfl

theorem OperandTree.ofJson_toJson (tree : OperandTree) :
    OperandTree.ofJson tree.toJson = .ok tree := by
  unfold OperandTree.ofJson OperandTree.toJson
  refine finish_ofJson (seq_eq_done (map_eq_done ?_) ?_)
  · exact field_eq_done (by simp) (treeOfJson_treeToJson tree.root)
  · exact field_eq_done (by simp) tree.span.ofJson_toJson

/-! ## Predicates and statements -/

/-- The arguments of a predicate are read off the object that names its kind. -/
theorem Predicate.ofJson_object (kind : PredicateKind) {fields : List (String × Json)}
    {predicate : Predicate} (htag : Table.find? "predicate" fields = some (.string kind.tag))
    (h : decodeArguments kind ⟨fields, false⟩ = .done predicate) :
    Predicate.ofJson (.object fields) = .ok predicate := by
  have hkind : PredicateKind.ofTag? kind.tag = some kind := by cases kind <;> rfl
  have hdecode : decodeTag (.object fields) = .ok (kind, .object fields) := by
    rw [decodeTag, htag]
    dsimp only
    rw [hkind]
  rw [Predicate.ofJson, hdecode]
  change (do
    let record ← Record.ofJson kind.fieldNames (.object fields)
    record.finish (decodeArguments kind record)) = .ok predicate
  exact finish_ofJson h

theorem Predicate.ofJson_toJson (predicate : Predicate) :
    Predicate.ofJson predicate.toJson = .ok predicate := by
  cases predicate with
  | equality left right span =>
    refine ofJson_object .equality (by simp [PredicateKind.tag])
      (seq_eq_done (seq_eq_done (map_eq_done ?_) ?_) ?_)
    · exact field_eq_done (by simp) left.ofJson_toJson
    · exact field_eq_done (by simp) right.ofJson_toJson
    · exact field_eq_done (by simp) span.ofJson_toJson
  | inequality left right span =>
    refine ofJson_object .inequality (by simp [PredicateKind.tag])
      (seq_eq_done (seq_eq_done (map_eq_done ?_) ?_) ?_)
    · exact field_eq_done (by simp) left.ofJson_toJson
    · exact field_eq_done (by simp) right.ofJson_toJson
    · exact field_eq_done (by simp) span.ofJson_toJson
  | bounds value min max span =>
    refine ofJson_object .bounds (by simp [PredicateKind.tag])
      (seq_eq_done (seq_eq_done (seq_eq_done (map_eq_done ?_) ?_) ?_) ?_)
    · exact field_eq_done (by simp) value.ofJson_toJson
    · exact fieldOr_eq_done (by simp) (decodeOption_optionToJson min)
    · exact fieldOr_eq_done (by simp) (decodeOption_optionToJson max)
    · exact field_eq_done (by simp) span.ofJson_toJson
  | membership member set span =>
    refine ofJson_object .membership (by simp [PredicateKind.tag])
      (seq_eq_done (seq_eq_done (map_eq_done ?_) ?_) ?_)
    · exact field_eq_done (by simp) member.ofJson_toJson
    · exact field_eq_done (by simp) (decodeList_map Operand.ofJson_toJson set)
    · exact field_eq_done (by simp) span.ofJson_toJson
  | mimcHash preimage image span =>
    refine ofJson_object .mimcHash (by simp [PredicateKind.tag])
      (seq_eq_done (seq_eq_done (map_eq_done ?_) ?_) ?_)
    · exact field_eq_done (by simp) preimage.ofJson_toJson
    · exact field_eq_done (by simp) image.ofJson_toJson
    · exact field_eq_done (by simp) span.ofJson_toJson
  | merkleTree root tree span =>
    refine ofJson_object .merkleTree (by simp [PredicateKind.tag])
      (seq_eq_done (seq_eq_done (map_eq_done ?_) ?_) ?_)
    · exact field_eq_done (by simp) root.ofJson_toJson
    · exact field_eq_done (by simp) tree.ofJson_toJson
    · exact field_eq_done (by simp) span.ofJson_toJson

/-- **A statement is read back as it was written.** -/
theorem Statement.ofJson_toJson (statement : Statement) :
    Statement.ofJson statement.toJson = .ok statement := by
  unfold Statement.ofJson Statement.toJson
  refine finish_ofJson (seq_eq_done (seq_eq_done (seq_eq_done (map_eq_done ?_) ?_) ?_) ?_)
  · exact field_eq_done (by simp) (decodeString_string statement.source)
  · exact field_eq_done (by simp) (decodeString_string statement.text)
  · exact fieldOr_eq_done (by simp) (decodeList_map Declaration.ofJson_toJson statement.subjects)
  · exact fieldOr_eq_done (by simp) (decodeList_map Predicate.ofJson_toJson statement.predicates)

end Syntax

/-! ## Sorted fields -/

namespace Json

theorem insertField_perm {name : String} {fields : List (String × Json)} (value : Json)
    (h : name ∉ Table.keys fields) : (insertField name value fields).Perm ((name, value) :: fields) := by
  induction fields with
  | nil => exact .refl _
  | cons entry rest ih =>
    obtain ⟨key, old⟩ := entry
    obtain ⟨hkey, hrest⟩ := not_or.1 (mt List.mem_cons.2 h)
    rw [insertField]
    split_ifs
    · exact .refl _
    · exact ((ih hrest).cons _).trans (.swap ..)

theorem foldl_insertField_perm {entries : List (String × Json)} (sorted : List (String × Json))
    (h : (Table.keys (entries ++ sorted)).Nodup) :
    (entries.foldl (fun sorted (name, value) => insertField name value sorted) sorted).Perm
      (entries ++ sorted) := by
  induction entries generalizing sorted with
  | nil => exact .refl _
  | cons entry rest ih =>
    obtain ⟨name, value⟩ := entry
    have hkeys : (name :: (Table.keys rest ++ Table.keys sorted)).Nodup := by
      simpa [Table.keys] using h
    have hname : name ∉ Table.keys sorted := fun hmem =>
      (List.nodup_cons.1 hkeys).1 (List.mem_append_right _ hmem)
    have hmiddle : (rest ++ insertField name value sorted).Perm ((name, value) :: (rest ++ sorted)) :=
      ((insertField_perm value hname).append_left rest).trans List.perm_middle
    exact (ih _ ((hmiddle.map Prod.fst).nodup_iff.2 h)).trans hmiddle

/-- **An object holds the fields it is made of**, if each name is given once. -/
theorem ofFields_eq {entries : List (String × Json)} (h : (Table.keys entries).Nodup) :
    ∃ sorted, ofFields entries = .object sorted ∧ sorted.Perm entries := by
  refine ⟨_, rfl, ?_⟩
  have hperm := foldl_insertField_perm [] (by rwa [List.append_nil])
  rwa [List.append_nil] at hperm

end Json

/-! ## Schemas -/

namespace FieldType

/-- Each field is declared once, at every level. -/
inductive Proper : FieldType → Prop
  | scalar (type : DataType) : Proper (.scalar type)
  | object {fields : Table FieldType} (hkeys : fields.keys.Nodup)
      (hfields : ∀ entry ∈ fields, Proper entry.2) : Proper (.object fields)
  | list {element : FieldType} (h : Proper element) : Proper (.list element)

/-- Declarations are the same: at every level fields of the same names, the same for each name. The
order of fields does not matter. -/
inductive Same : FieldType → FieldType → Prop
  | scalar (type : DataType) : Same (.scalar type) (.scalar type)
  | object {fields fields' : Table FieldType} (hkeys : fields.keys.Perm fields'.keys)
      (hfields : ∀ name declared declared', fields.find? name = some declared →
        fields'.find? name = some declared' → Same declared declared') :
      Same (.object fields) (.object fields')
  | list {element element' : FieldType} (h : Same element element') :
      Same (.list element) (.list element')

end FieldType

theorem fieldTypesToJson_eq (fields : List (String × FieldType)) :
    fieldTypesToJson fields = fields.map fun entry => (entry.1, entry.2.toJson) := by
  induction fields with
  | nil => rw [fieldTypesToJson, List.map_nil]
  | cons entry rest ih => rw [fieldTypesToJson, ih, List.map_cons]

/-- Fields are read one by one, under the names that they have. -/
theorem fieldTypesOfFields_eq_ok {P : String → FieldType → Prop} {fields : List (String × Json)}
    (h : ∀ entry ∈ fields, ∃ declared, FieldType.ofJson entry.2 = .ok declared ∧
      P entry.1 declared) :
    ∃ fields', fieldTypesOfFields fields = .ok fields' ∧ fields'.keys = Table.keys fields ∧
      ∀ entry ∈ fields', P entry.1 entry.2 := by
  induction fields with
  | nil => exact ⟨[], by rw [fieldTypesOfFields], rfl, by simp⟩
  | cons entry rest ih =>
    obtain ⟨name, content⟩ := entry
    obtain ⟨declared, hdeclared, hP⟩ := h (name, content) List.mem_cons_self
    obtain ⟨others, hothers, hkeys, hrest⟩ := ih fun entry hentry =>
      h entry (List.mem_cons_of_mem _ hentry)
    refine ⟨(name, declared) :: others, ?_, ?_, List.forall_mem_cons.2 ⟨hP, hrest⟩⟩
    · rw [fieldTypesOfFields, hdeclared, hothers]
      rfl
    · exact congrArg (name :: ·) hkeys

/-- Declared fields are read back as the same ones if each of them is. -/
theorem fieldTypesOfJson_ofFields {fields : Table FieldType} (hkeys : fields.keys.Nodup)
    (h : ∀ entry ∈ fields, ∃ declared, FieldType.ofJson entry.2.toJson = .ok declared ∧
      entry.2.Same declared) :
    ∃ fields', fieldTypesOfJson (.ofFields (fieldTypesToJson fields)) = .ok fields' ∧
      FieldType.Same (.object fields) (.object fields') := by
  have hwritten : Table.keys (fieldTypesToJson fields) = fields.keys := by
    rw [fieldTypesToJson_eq, Table.keys, List.map_map]
    rfl
  obtain ⟨sorted, hsorted, hperm⟩ := Json.ofFields_eq (hwritten ▸ hkeys)
  have hread : ∀ entry ∈ sorted, ∃ declared, FieldType.ofJson entry.2 = .ok declared ∧
      ∃ original, (entry.1, original) ∈ fields ∧ original.Same declared := by
    intro entry hentry
    have hmem := hperm.subset hentry
    rw [fieldTypesToJson_eq] at hmem
    obtain ⟨original, horiginal, rfl⟩ := List.mem_map.1 hmem
    obtain ⟨declared, hdeclared, hsame⟩ := h original horiginal
    exact ⟨declared, hdeclared, original.2, horiginal, hsame⟩
  obtain ⟨fields', hfields', hkeys', hsame⟩ := fieldTypesOfFields_eq_ok
    (P := fun name declared => ∃ original, (name, original) ∈ fields ∧ original.Same declared) hread
  refine ⟨fields', by rw [hsorted, fieldTypesOfJson, hfields'], .object ?_ ?_⟩
  · rw [hkeys', ← hwritten]
    exact (hperm.map Prod.fst).symm
  · intro name declared declared' hfind hfind'
    obtain ⟨original, horiginal, hsame⟩ := hsame _ (Table.mem_of_find? hfind')
    rw [Table.find?_of_mem hkeys horiginal] at hfind
    cases hfind
    exact hsame

/-- **A declaration is read back as the same one.** -/
theorem FieldType.ofJson_toJson {declared : FieldType} (h : declared.Proper) :
    ∃ declared', FieldType.ofJson declared.toJson = .ok declared' ∧ declared.Same declared' := by
  induction h with
  | scalar type =>
    refine ⟨.scalar type, ?_, .scalar type⟩
    have htype : decodeWord DataType.ofName? (.string type.name) = .ok type := by cases type <;> rfl
    rw [toJson, ofJson, if_pos rfl, htype]
    rfl
  | object hkeys hfields ih =>
    obtain ⟨fields', hread, hsame⟩ := fieldTypesOfJson_ofFields hkeys ih
    refine ⟨.object fields', ?_, hsame⟩
    rw [toJson, ofJson, if_neg (by simp), if_pos rfl, hread]
    rfl
  | list h ih =>
    obtain ⟨element', hread, hsame⟩ := ih
    refine ⟨.list element', ?_, .list hsame⟩
    rw [toJson, ofJson, if_neg (by simp), if_neg (by simp), if_pos rfl, hread]
    rfl

namespace Schema

/-- Each field of the schema is declared once, at every level. -/
def Proper (schema : Schema) : Prop :=
  FieldType.Proper (.object schema.fields)

/-- Schemas of one name and one rule that declare the same fields. -/
def Same (schema schema' : Schema) : Prop :=
  schema.name = schema'.name ∧ FieldType.Same (.object schema.fields) (.object schema'.fields) ∧
    schema.rule = schema'.rule

/-- **A schema is read back as the same one.** -/
theorem ofJson_toJson {schema : Schema} (h : schema.Proper) :
    ∃ schema', Schema.ofJson schema.toJson = .ok schema' ∧ schema.Same schema' := by
  obtain ⟨hkeys, hfields⟩ : schema.fields.keys.Nodup ∧ ∀ entry ∈ schema.fields, entry.2.Proper := by
    cases h with
    | object hkeys hfields => exact ⟨hkeys, hfields⟩
  obtain ⟨fields', hread, hsame⟩ := fieldTypesOfJson_ofFields hkeys fun entry hentry =>
    FieldType.ofJson_toJson (hfields entry hentry)
  refine ⟨⟨schema.name, fields', schema.rule⟩, ?_, rfl, hsame, rfl⟩
  unfold Schema.ofJson Schema.toJson
  refine finish_ofJson (seq_eq_done (seq_eq_done (map_eq_done ?_) ?_) ?_)
  · exact field_eq_done (by simp) (decodeString_string schema.name)
  · exact field_eq_done (by simp) hread
  · cases schema.rule with
    | none => exact fieldOr_eq_missing (by simp [Table.find?])
    | some rule =>
      have hrule : decodeOption Syntax.Statement.ofJson rule.toJson = .ok (some rule) := by
        change (Syntax.Statement.ofJson rule.toJson).map some = _
        rw [rule.ofJson_toJson]
        rfl
      exact fieldOr_eq_done (by simp) hrule

end Schema

/-- **What is written is read back.** Every statement is read back from its document as it was. Every
schema that declares each field once, as tables of fields do, is read back as the same schema, its
fields being compared as maps. -/
theorem documents_read_back (statement : Syntax.Statement) (schema : Schema) (h : schema.Proper) :
    Syntax.Statement.ofJson statement.toJson = .ok statement ∧
      ∃ schema', Schema.ofJson schema.toJson = .ok schema' ∧ schema.Same schema' :=
  ⟨statement.ofJson_toJson, Schema.ofJson_toJson h⟩

/-- A place to live. The fields are not in the order of their names, some of them hold others, and the
rule has a number that fits in no word. -/
def homeSchema : Schema where
  name := "home"
  fields := [("zip", .scalar .integer),
    ("place", .object [("street", .scalar .text), ("city", .scalar .text)]),
    ("guests", .list (.object [("name", .scalar .text), ("known", .scalar .boolean)]))]
  rule := some ⟨"home", "", [⟨⟨"private", ⟨8, 15, 1⟩⟩, ⟨"home", ⟨31, 35, 1⟩⟩, .witness⟩],
    [.bounds (.identifier "private" ⟨["zip"]⟩ ⟨46, 57, 2⟩)
      (some (.literal (.integer (-1000000000000000000000)) ⟨60, 83, 2⟩)) none ⟨46, 83, 2⟩]⟩

theorem documents_read_back_home :
    homeSchema.Proper ∧ ∃ rule, homeSchema.rule = some rule ∧
      Syntax.Statement.ofJson rule.toJson = .ok rule ∧
      ∃ schema', Schema.ofJson homeSchema.toJson = .ok schema' ∧ homeSchema.Same schema' := by
  have hscalars : ∀ first second : String, first ≠ second → ∀ type type' : DataType,
      FieldType.Proper (.object [(first, .scalar type), (second, .scalar type')]) := by
    intro first second hne type type'
    refine .object (by simpa [Table.keys] using hne) ?_
    exact List.forall_mem_cons.2 ⟨.scalar type, List.forall_mem_singleton.2 (.scalar type')⟩
  have hproper : homeSchema.Proper := by
    refine .object (by decide) (List.forall_mem_cons.2 ⟨.scalar .integer, List.forall_mem_cons.2
      ⟨?_, List.forall_mem_singleton.2 (.list ?_)⟩⟩)
    · exact hscalars "street" "city" (by decide) .text .text
    · exact hscalars "name" "known" (by decide) .text .boolean
  obtain ⟨rule, hrule⟩ : ∃ rule, homeSchema.rule = some rule := ⟨_, rfl⟩
  obtain ⟨hstatement, hschema⟩ := documents_read_back rule homeSchema hproper
  exact ⟨hproper, rule, hrule, hstatement, hschema⟩

end Attestation
