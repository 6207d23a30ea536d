import Attestation.Proofs.Conformance
import Attestation.Proofs.Exposure
import Attestation.Proofs.SlotOrder

/-!
# Fields that share a slot

A slot is for all variables of one visibility, one value and one place. The place is kept as it is
printed, with dots between the alias and the segments of the selector. A dot inside a name is
printed like one between names, so `alice.home.city` is the field `city` of the field `home` and
also the field whose name is `home.city`. What the printed place tells apart are the names between
all its dots (`Reference.parts`, `Reference.text_eq_iff`).

Of a request that compiles, two variables hence share a slot exactly if they are equally visible,
have the same value and refer to places spelled alike, or to none. Then they refer to the same place
if no name has a dot, and also if their value is sealed, as a sealed value says which selector it was
read by (`Request.slotOf_eq_iff_of_compile`). With names that have dots, two fields that happen to
hold the same value share a slot (`Request.slotOf_town_eq`).
-/

namespace Attestation

open Syntax

/-! ## Places as they are printed -/

/-- A text is made up of its parts. -/
theorem splitOn_injective {x : Char} {cs ds : List Char} (h : cs.splitOn x = ds.splitOn x) :
    cs = ds := by
  have hjoined := congrArg ([x].intercalate ·) h
  simpa only [List.intercalate_splitOn] using hjoined

namespace DataType

theorem ne_blank_of_mem_name (type : DataType) : ∀ c ∈ type.name.toList, (c != ' ') = true := by
  cases type <;> simp [name]

theorem name_injective {type other : DataType} (h : type.name = other.name) : type = other := by
  revert h
  cases type <;> cases other <;> decide

end DataType

namespace Reference

variable {r s : Reference}

/-- The alias and the names of the fields on the way to a place. -/
def names (r : Reference) : List String :=
  r.subject :: r.selector.segments

/-- What stands between the dots of a printed place. -/
def parts (r : Reference) : List (List Char) :=
  r.names.flatMap fun name => name.toList.splitOn '.'

/-- No dot of the printed place belongs to a name. -/
def Undotted (r : Reference) : Prop :=
  ∀ name ∈ r.names, '.' ∉ name.toList

instance : Decidable r.Undotted :=
  inferInstanceAs (Decidable (∀ name ∈ r.names, '.' ∉ name.toList))

/-- Places of one type with the same names, up to where the names are divided at dots. -/
def SpelledAlike (r s : Reference) : Prop :=
  r.type = s.type ∧ r.parts = s.parts

theorem path_eq (r : Reference) : r.path = r.subject ++ "." ++ r.selector.text := rfl

theorem text_eq (r : Reference) : r.text = r.path ++ ": " ++ r.type.name := rfl

theorem splitOn_path (hr : r.selector.segments ≠ []) : r.path.toList.splitOn '.' = r.parts := by
  have hsegments : r.selector.segments.map String.toList ≠ [] := by simpa using hr
  have hpath : r.path.toList =
      r.subject.toList ++ '.' :: ['.'].intercalate (r.selector.segments.map String.toList) := by
    simp [path_eq, Selector.text, String.toList_intercalate]
  rw [hpath, List.splitOn_append_cons_self,
    intercalate_eq_flatMap List.splitOn_append_cons_self hsegments, List.flatMap_map]
  rfl

theorem path_eq_iff (hr : r.selector.segments ≠ []) (hs : s.selector.segments ≠ []) :
    r.path = s.path ↔ r.parts = s.parts := by
  rw [← splitOn_path hr, ← splitOn_path hs]
  exact ⟨fun h => by rw [h], fun h => String.toList_inj.1 (splitOn_injective h)⟩

/-- The type stands behind the last blank. -/
theorem type_and_path_of_text_eq (h : r.text = s.text) : r.type = s.type ∧ r.path = s.path := by
  -- The path may have blanks too, the name of a type has none: the texts are compared from the end.
  have hreverse : ∀ r : Reference, r.text.toList.reverse =
      r.type.name.toList.reverse ++ ' ' :: ':' :: r.path.toList.reverse := by
    intro r
    simp [text_eq]
  have hname : ∀ r : Reference, ∀ c ∈ r.type.name.toList.reverse, (c != ' ') = true :=
    fun r c hc => r.type.ne_blank_of_mem_name c (List.mem_reverse.1 hc)
  have happend := congrArg (fun text : String => text.toList.reverse) h
  simp only [hreverse] at happend
  obtain ⟨htype, hrest⟩ :=
    append_inj_of_stop (hname r) (hname s) (by simp) (by simp) happend
  have hpath : r.path.toList = s.path.toList := by simpa using hrest
  exact ⟨DataType.name_injective (String.toList_inj.1 (List.reverse_inj.1 htype)),
    String.toList_inj.1 hpath⟩

/-- **Two places are printed alike exactly if they are spelled alike.** -/
theorem text_eq_iff (hr : r.selector.segments ≠ []) (hs : s.selector.segments ≠ []) :
    r.text = s.text ↔ r.SpelledAlike s := by
  rw [SpelledAlike, ← path_eq_iff hr hs]
  refine ⟨type_and_path_of_text_eq, fun ⟨htype, hpath⟩ => ?_⟩
  rw [text_eq, text_eq, htype, hpath]

theorem parts_of_undotted (h : r.Undotted) : r.parts = r.names.map String.toList := by
  rw [parts, List.map_eq_flatMap]
  exact List.flatMap_congr fun name hname => List.splitOn_eq_singleton (h name hname)

namespace SpelledAlike

/-- Without dots in names there is one way to divide a printed place. -/
theorem eq_of_undotted (h : r.SpelledAlike s) (hr : r.Undotted) (hs : s.Undotted) : r = s := by
  have hnames : r.names = s.names := by
    refine List.map_injective_iff.2 (fun _ _ => String.toList_inj.1) ?_
    rw [← parts_of_undotted hr, ← parts_of_undotted hs, h.2]
  obtain ⟨hsubject, hsegments⟩ := List.cons.inj hnames
  obtain ⟨_, _, ⟨_⟩⟩ := r
  obtain ⟨_, _, ⟨_⟩⟩ := s
  cases h.1
  cases hsubject
  cases hsegments
  rfl

/-- Behind different aliases, a selector is printed as different places. -/
theorem eq_of_selector_eq (h : r.SpelledAlike s) (hselector : r.selector = s.selector) :
    r = s := by
  have hparts : r.subject.toList.splitOn '.' = s.subject.toList.splitOn '.' := by
    have := h.2
    simp only [parts, names, List.flatMap_cons, hselector] at this
    exact List.append_cancel_right this
  have hsubject : r.subject = s.subject := String.toList_inj.1 (splitOn_injective hparts)
  obtain ⟨_, _, _⟩ := r
  obtain ⟨_, _, _⟩ := s
  cases h.1
  cases hsubject
  cases hselector
  rfl

end SpelledAlike

end Reference

/-! ## Places of variables -/

theorem Schema.segments_ne_nil {schema : Schema} {selector : Selector} {type : DataType}
    (h : schema.fieldType selector = .ok type) : selector.segments ≠ [] := by
  intro hnil
  simp [Schema.fieldType, hnil] at h

/-- A sealed value is known by the selector it is read with. -/
theorem Accessor.selector_of_get_sealed {accessor : Accessor} {selector : Selector}
    {type : DataType} {origin : Reference}
    (h : accessor.get selector type = .ok (.sealed origin)) : origin.selector = selector := by
  cases accessor with
  | document root =>
    obtain ⟨leaf, -, hleaf⟩ := Accessor.get_document_eq_ok_iff.1 h
    cases hleaf
  | synthetic subject schema =>
    obtain ⟨declared, -, h⟩ := bind_eq_ok_iff.1 h
    split_ifs at h
    cases h
    rfl

/-- A variable that refers to a place was read there: the place is inside the data of the subject,
and a sealed value is known by the selector of the place. -/
def Variable.Traced (v : Variable) : Prop :=
  ∀ r, v.reference = some r → r.selector.segments ≠ [] ∧
    ∀ origin, v.literal = .sealed origin → origin.selector = r.selector

theorem Scope.traced_of_operand {scope : Scope} {subjects : Table Subject} {operand : Operand}
    {v : Variable} (h : scope.operand subjects operand = .ok v) : v.Traced := by
  cases operand with
  | identifier name selector span =>
    unfold Scope.operand at h
    dsimp only at h
    split at h
    case h_1 => cases h
    case h_2 subject hfind =>
      obtain ⟨type, literal, hlookup, rfl⟩ := Subject.resolve_eq_ok h
      obtain ⟨htype, hget⟩ := Subject.lookup_eq_ok_iff.1 hlookup
      rintro _ ⟨⟩
      refine ⟨Schema.segments_ne_nil htype, ?_⟩
      rintro origin rfl
      exact Accessor.selector_of_get_sealed hget
  | literal constant span =>
    unfold Scope.operand at h
    dsimp only at h
    split at h
    case h_1 => cases h
    case h_2 =>
      cases h
      rintro _ ⟨⟩

theorem Scope.Yields.traced {context : DataContext} {v : Variable} (h : Yields context v) :
    v.Traced := by
  cases h with
  | read scope hcontext hds h => exact traced_of_operand h
  | constant value h =>
    subst h
    rintro r ⟨⟩

/-! ## Slots of variables -/

theorem eq_of_rel {α : Type} {R : α → α → Prop} {a b : Option α} (h : Option.Rel R a b)
    (heq : ∀ x y, a = some x → b = some y → R x y → x = y) : a = b := by
  cases h with
  | none => rfl
  | some hxy => exact congrArg some (heq _ _ rfl rfl hxy)

namespace Variable.Traced

variable {v w : Variable}

/-- The keys of variables that were read agree exactly if visibilities, values and places do. -/
theorem slotKey_eq_iff (hv : v.Traced) (hw : w.Traced) :
    SlotKey.ofVariable v = SlotKey.ofVariable w ↔ v.visibility = w.visibility ∧
      v.literal = w.literal ∧ Option.Rel Reference.SpelledAlike v.reference w.reference := by
  have hplace : v.reference.map Reference.text = w.reference.map Reference.text ↔
      Option.Rel Reference.SpelledAlike v.reference w.reference := by
    cases hr : v.reference with
    | none =>
      cases hs : w.reference with
      | none => exact iff_of_true rfl .none
      | some s => exact iff_of_false (by simp) (by rintro ⟨⟩)
    | some r =>
      cases hs : w.reference with
      | none => exact iff_of_false (by simp) (by rintro ⟨⟩)
      | some s =>
        rw [Option.rel_some_some, ← Reference.text_eq_iff (hv r hr).1 (hw s hs).1]
        simp
  rw [SlotKey.ofVariable, SlotKey.ofVariable, SlotKey.mk.injEq, hplace]
  exact and_congr_right' and_comm

/-- Where values and places agree, a sealed value leaves one place only, and so do names without
dots. -/
theorem reference_eq (hv : v.Traced) (hw : w.Traced) (hliteral : v.literal = w.literal)
    (hplace : Option.Rel Reference.SpelledAlike v.reference w.reference)
    (h : v.literal.isSealed = true ∨
      (∀ r, v.reference = some r → r.Undotted) ∧ ∀ s, w.reference = some s → s.Undotted) :
    v.reference = w.reference := by
  refine eq_of_rel hplace fun r s hr hs hrs => ?_
  rcases h with hsealed | ⟨hrdots, hsdots⟩
  · cases hvalue : v.literal with
    | «sealed» origin =>
      have hselector := (hv r hr).2 origin hvalue
      have hselector' := (hw s hs).2 origin (hliteral ▸ hvalue)
      exact hrs.eq_of_selector_eq (hselector.symm.trans hselector')
    | _ => simp [hvalue, Literal.isSealed] at hsealed
  · exact hrs.eq_of_undotted (hrdots r hr) (hsdots s hs)

end Variable.Traced

/-- The slot of a variable in the rendered statement. -/
def Compilation.slotOf (c : Compilation) : Variable → String :=
  (Slots.ofGadgets c.statement.gadgets).slotOf

namespace Request

theorem traced_of_compile {request : Request} {c : Compilation}
    (h : request.compile? = some (.ok c)) :
    ∀ g ∈ c.statement.gadgets, ∀ v ∈ g.vars, v.Traced := by
  obtain ⟨rs, hrs, hcompiled⟩ := resolutions_of_compile h
  obtain ⟨ruleSources, hyields⟩ := yields_of_resolutions hrs
  obtain ⟨r, hr, out, hout, hsub⟩ := exists_of_forall₂ hcompiled.flip List.mem_cons_self
  intro g hg
  refine (KeptByRules.vars Variable.Traced).optimize hout (fun g hg v hv => ?_) g (hsub hg)
  exact (hyields r hr g hg v hv).traced

/-- **Which variables share a slot.** In the statement of a request that compiles these are the
equally visible ones with the same value whose places are spelled alike, or that have none. They
refer to the same place if their value is sealed or no dot belongs to a name. -/
theorem slotOf_eq_iff_of_compile (request : Request) (c : Compilation)
    (h : request.compile? = some (.ok c)) (v w : Variable)
    (hv : v ∈ c.statement.gadgets.flatMap Gadget.vars)
    (hw : w ∈ c.statement.gadgets.flatMap Gadget.vars) :
    (c.slotOf v = c.slotOf w ↔ v.visibility = w.visibility ∧ v.literal = w.literal ∧
      Option.Rel Reference.SpelledAlike v.reference w.reference) ∧
    (c.slotOf v = c.slotOf w →
      (v.literal.isSealed = true ∨ (∀ r, v.reference = some r → r.Undotted) ∧
        ∀ s, w.reference = some s → s.Undotted) →
      v.reference = w.reference) := by
  obtain ⟨g, hg, hv⟩ := List.mem_flatMap.1 hv
  obtain ⟨g', hg', hw⟩ := List.mem_flatMap.1 hw
  have hvtraced := traced_of_compile h g hg v hv
  have hwtraced := traced_of_compile h g' hg' w hw
  have hshare := (Slots.linked_ofGadgets c.statement.gadgets).slotOf_eq_iff
    (Slots.holds_ofGadgets g hg v hv) (Slots.holds_ofGadgets g' hg' w hw)
  have hiff := hshare.trans (hvtraced.slotKey_eq_iff hwtraced)
  refine ⟨hiff, fun hslot => ?_⟩
  obtain ⟨-, hliteral, hplace⟩ := hiff.1 hslot
  exact hvtraced.reference_eq hwtraced hliteral hplace

/-- Data that has a city in its home, and a field named by a text with a dot. -/
def townSchema : Schema where
  name := "town"
  fields := [("home", .object [("city", .scalar .text)]), ("home.city", .scalar .text)]
  rule := none

/-- The predicate that a place of Alice is not a city, written on a line. -/
def isNot (segments : List String) (city : String) (line : UInt16) : Predicate :=
  .inequality (.identifier "alice" ⟨segments⟩ ⟨0, 0, line⟩) (string city) noSpan

/-- Both fields hold the same city, and are to be shown to hold no other. -/
def town : Request where
  name := "town"
  statement := statementAbout "alice" "town"
    [isNot ["home", "city"] "Basel" 1, isNot ["home.city"] "Chur" 2,
      isNot ["home", "city"] "Genf" 3]
  premises := []
  schemas := [("town", townSchema)]
  witness := [("alice", .document (.object [("home", .object [("city", .string "Bern")]),
    ("home.city", .string "Bern")]))]
  disclosed := []
  cap := 10

/-- A field of Alice that is read on a line. -/
def cityOnLine (segments : List String) (line : UInt16) : Variable :=
  ⟨.witness, .text "Bern", some ((⟨0, 0, line⟩ : Span).pin 0),
    some ⟨.text, "alice", ⟨segments⟩⟩⟩

def townGadgets : List Gadget :=
  [.inequality ⟨cityOnLine ["home", "city"] 1, written (.text "Basel") 0⟩,
    .inequality ⟨cityOnLine ["home.city"] 2, written (.text "Chur") 0⟩,
    .inequality ⟨cityOnLine ["home", "city"] 3, written (.text "Genf") 0⟩]

theorem gadgets?_town : town.gadgets? = some townGadgets := by
  decide +kernel

theorem slotOf_eq_iff_of_compile_town : ∃ c, town.compile? = some (.ok c) ∧
    c.slotOf (cityOnLine ["home", "city"] 1) = c.slotOf (cityOnLine ["home", "city"] 3) ∧
    (cityOnLine ["home", "city"] 1).reference = (cityOnLine ["home", "city"] 3).reference := by
  obtain ⟨c, hc, hgadgets⟩ := exists_compile_of_gadgets? gadgets?_town
  have hundotted : ∀ line r, (cityOnLine ["home", "city"] line).reference = some r →
      r.Undotted := by
    rintro line _ ⟨⟩
    decide
  obtain ⟨hshare, hsame⟩ := slotOf_eq_iff_of_compile town c hc (cityOnLine ["home", "city"] 1)
    (cityOnLine ["home", "city"] 3) (by rw [hgadgets]; decide) (by rw [hgadgets]; decide)
  have hslot := hshare.2 ⟨rfl, rfl, .some ⟨rfl, rfl⟩⟩
  exact ⟨c, hc, hslot, hsame hslot (.inr ⟨hundotted 1, hundotted 3⟩)⟩

/-- Two fields share a slot. -/
theorem slotOf_town_eq : ∃ c, town.compile? = some (.ok c) ∧
    ∃ v ∈ c.statement.gadgets.flatMap Gadget.vars, ∃ w ∈ c.statement.gadgets.flatMap Gadget.vars,
      v.reference = some ⟨.text, "alice", ⟨["home", "city"]⟩⟩ ∧
      w.reference = some ⟨.text, "alice", ⟨["home.city"]⟩⟩ ∧ c.slotOf v = c.slotOf w := by
  obtain ⟨c, hc, hgadgets⟩ := exists_compile_of_gadgets? gadgets?_town
  refine ⟨c, hc, cityOnLine ["home", "city"] 1, by rw [hgadgets]; decide,
    cityOnLine ["home.city"] 2, by rw [hgadgets]; decide, rfl, rfl, ?_⟩
  rw [Compilation.slotOf, hgadgets]
  decide +kernel

end Request

end Attestation
