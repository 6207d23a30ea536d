import Attestation.Proofs.ShownValues
import Attestation.Proofs.SlotAssignment

/-!
# Documents are told by their text

No two documents have one text (`Json.pretty_injective`). The first character tells the kind of a
document, a string ends at its first quote that is not escaped, a number at the first character that
no number has, and a container where its items and fields say.

So the text of a rendered statement tells both of its tables, with each value as it is shown; and as
known values are told by what is shown of them, it tells every known value behind a slot:
`Rendered.known_of_document`.
-/

namespace Attestation

open Text

namespace Json

/-- Induction over documents: what holds of the items of an array and the values of an object goes
over to these. -/
@[elab_as_elim]
theorem ind {P : Json → Prop} (null : P .null) (boolean : ∀ value, P (.boolean value))
    (number : ∀ value, P (.number value)) (string : ∀ value, P (.string value))
    (array : ∀ items, (∀ d ∈ items, P d) → P (.array items))
    (object : ∀ fields : List (String × Json), (∀ f ∈ fields, P f.2) → P (.object fields))
    (d : Json) : P d :=
  @Json.rec P (fun items => ∀ d ∈ items, P d) (fun fields => ∀ f ∈ fields, P f.2) (fun f => P f.2)
    null boolean number string array object
    (by simp) (fun _ _ first rest => List.forall_mem_cons.2 ⟨first, rest⟩)
    (by simp) (fun _ _ first rest => List.forall_mem_cons.2 ⟨first, rest⟩) (fun _ _ h => h) d

/-! ## Strings -/

/-- Takes a character off the front of the body of a string. -/
def readChar? : Reader Char
  | [] => none
  | '"' :: _ => none
  | '\\' :: 'u' :: a :: b :: c :: d :: cs => (unit? a b c d).map fun n => (Char.ofNat n, cs)
  | '\\' :: c :: cs => (escaped? c).map fun c => (c, cs)
  | c :: cs => some (c, cs)

theorem readChar?_escape (c : Char) (rest : List Char) :
    readChar? (escape c ++ rest) = some (c, rest) := by
  unfold escape
  split_ifs with hquote hslash hb hf hn hr ht hcontrol
  · subst hquote; rfl
  · subst hslash; rfl
  · subst hb; rfl
  · subst hf; rfl
  · subst hn; rfl
  · subst hr; rfl
  · subst ht; rfl
  · have hunit : unit? '0' '0' (Nat.digitChar (c.toNat / 16)) (Nat.digitChar (c.toNat % 16)) =
        some c.toNat := by
      have hzero : hexValue? '0' = some 0 := rfl
      simp only [unit?, hzero, hexValue?_digitChar (c.toNat / 16) (by omega),
        hexValue?_digitChar (c.toNat % 16) (by omega)]
      exact congrArg some (by omega)
    simp only [List.cons_append, List.nil_append, readChar?, hunit, Option.map_some,
      Char.ofNat_toNat]
  · simp [readChar?, hslash]

/-- **A string is told from what follows it.** -/
theorem quote_append_inj {s s' : String} {r r' : List Char}
    (h : (quote s).toList ++ r = (quote s').toList ++ r') : s = s' ∧ r = r' := by
  simp only [quote, String.toList_ofList, List.cons_append, List.append_assoc, List.nil_append,
    List.cons.injEq, true_and] at h
  obtain ⟨hbody, hbehind⟩ := flatMap_append_inj readChar?_escape rfl rfl h
  exact ⟨String.toList_inj.1 hbody, (List.cons.inj hbehind).2⟩

/-! ## Numbers -/

/-- The characters of numbers. -/
def inNumber (c : Char) : Bool :=
  c.isDigit || c = '-' || c = 'e'

/-- No number goes on at the start of a text. -/
def Stops (r : List Char) : Prop :=
  ∀ c ∈ r.head?, inNumber c = false

/-- Something is told from what follows its text, if no number goes on there. -/
def Told {α : Type} (write : α → List Char) (a : α) : Prop :=
  ∀ b r r', Stops r → Stops r' → write a ++ r = write b ++ r' → a = b ∧ r = r'

theorem inNumber_of_mem_ofInt {n : Int} {c : Char} (h : c ∈ (Decimal.ofInt n).toList) :
    inNumber c = true := by
  rcases Decimal.eq_minus_or_isDigit_of_mem_ofInt h with rfl | hc
  · rfl
  · simp [inNumber, hc]

theorem Number.inNumber_of_mem_text {n : Number} {c : Char} (h : c ∈ n.text.toList) :
    inNumber c = true := by
  cases n with
  | integer value => exact inNumber_of_mem_ofInt h
  | fraction mantissa exponent =>
    simp only [Number.text, String.toList_append, List.mem_append] at h
    rcases h with (h | h) | h
    · exact inNumber_of_mem_ofInt h
    · simp at h
      subst h
      rfl
    · exact inNumber_of_mem_ofInt h

theorem Number.text_injective : Function.Injective Number.text := by
  have hexponent : ∀ n : Int, ∀ c ∈ (Decimal.ofInt n).toList, (c != 'e') = true := by
    intro n c hc
    rcases Decimal.eq_minus_or_isDigit_of_mem_ofInt hc with rfl | hdigit
    · rfl
    · rw [bne_iff_ne]
      rintro rfl
      exact absurd hdigit (by decide)
  have hmark : ∀ n m e : Int, Decimal.ofInt n ≠ Decimal.ofInt m ++ "e" ++ Decimal.ofInt e := by
    intro n m e h
    have he : 'e' ∈ (Decimal.ofInt n).toList := by simp [h]
    exact absurd (hexponent n _ he) (by decide)
  intro n n' h
  cases n with
  | integer value =>
    cases n' with
    | integer value' => rw [Decimal.ofInt_injective h]
    | fraction mantissa exponent => exact absurd h (hmark _ _ _)
  | fraction mantissa exponent =>
    cases n' with
    | integer value => exact absurd h.symm (hmark _ _ _)
    | fraction mantissa' exponent' =>
      have hlist := congrArg String.toList h
      simp only [Number.text, String.toList_append, List.append_assoc] at hlist
      obtain ⟨hmantissa, hbehind⟩ := append_inj_of_stop (hexponent mantissa) (hexponent mantissa')
        (by simp) (by simp) hlist
      rw [Decimal.ofInt_injective (String.toList_inj.1 hmantissa),
        Decimal.ofInt_injective (String.toList_inj.1 (List.append_cancel_left hbehind))]

/-! ## Kinds -/

/-- The kind of a document, as the first character of its text tells it. -/
def shownKind : List Char → String
  | 'n' :: _ => "null"
  | 't' :: _ => "boolean"
  | 'f' :: _ => "boolean"
  | '"' :: _ => "string"
  | '[' :: _ => "array"
  | '\x7b' :: _ => "object"
  | _ => "number"

theorem Number.exists_text_eq (n : Number) :
    ∃ c cs, n.text.toList = c :: cs ∧ (c = '-' ∨ c.isDigit = true) := by
  have hint : ∀ value : Int, ∃ c cs, (Decimal.ofInt value).toList = c :: cs := by
    intro value
    refine List.exists_cons_of_ne_nil ?_
    cases value <;> simp [Decimal.ofInt, Decimal.ofNat]
  cases n with
  | integer value =>
    obtain ⟨c, cs, h⟩ := hint value
    exact ⟨c, cs, h, Decimal.eq_minus_or_isDigit_of_mem_ofInt (h ▸ List.mem_cons_self)⟩
  | fraction mantissa exponent =>
    obtain ⟨c, cs, h⟩ := hint mantissa
    refine ⟨c, cs ++ 'e' :: (Decimal.ofInt exponent).toList, by simp [Number.text, h], ?_⟩
    exact Decimal.eq_minus_or_isDigit_of_mem_ofInt (h ▸ List.mem_cons_self)

theorem shownKind_prettyAt (level : Nat) (d : Json) (r : List Char) :
    shownKind ((prettyAt level d).toList ++ r) = d.kindName := by
  cases d with
  | null => simp [prettyAt, shownKind, kindName]
  | boolean value => cases value <;> simp [prettyAt, shownKind, kindName]
  | number value =>
    obtain ⟨c, cs, htext, hc⟩ := value.exists_text_eq
    rw [prettyAt, htext, List.cons_append]
    unfold shownKind
    split <;> simp_all [kindName]
  | string value => simp [prettyAt, quote, shownKind, kindName]
  | array items => cases items <;> simp [prettyAt, shownKind, kindName]
  | object fields => cases fields <;> simp [prettyAt, shownKind, kindName]

/-- To be told from what follows, a document has to be told from documents of its kind. -/
theorem told_of_kind {level : Nat} {d : Json} (h : ∀ d' r r', d.kindName = d'.kindName →
      Stops r → Stops r' → (prettyAt level d).toList ++ r = (prettyAt level d').toList ++ r' →
        d = d' ∧ r = r') : Told (fun d => (prettyAt level d).toList) d := by
  intro d' r r' hr hr' heq
  refine h d' r r' ?_ hr hr' heq
  rw [← shownKind_prettyAt level d r, show (prettyAt level d).toList ++ r = _ from heq,
    shownKind_prettyAt]

/-! ## Containers -/

/-- A field without its line. -/
def fieldText (level : Nat) (f : String × Json) : String :=
  quote f.1 ++ ": " ++ prettyAt level f.2

theorem prettyItems_eq_map (level : Nat) (items : List Json) :
    prettyItems level items = items.map fun d => newline level ++ prettyAt level d := by
  induction items with
  | nil => rfl
  | cons d rest ih => rw [prettyItems, ih, List.map_cons]

theorem prettyFields_eq_map (level : Nat) (fields : List (String × Json)) :
    prettyFields level fields = fields.map fun f => newline level ++ fieldText level f := by
  induction fields with
  | nil => rfl
  | cons f rest ih =>
    rw [prettyFields, ih, List.map_cons, fieldText, String.append_assoc, String.append_assoc,
      String.append_assoc]

/-- Texts, each behind a comma. -/
def behindCommas (texts : List (List Char)) : List Char :=
  texts.flatMap fun text => ',' :: text

theorem intercalate_eq_append_behindCommas (text : List Char) (texts : List (List Char)) :
    [','].intercalate (text :: texts) = text ++ behindCommas texts := by
  induction texts generalizing text with
  | nil => simp [behindCommas]
  | cons next rest ih =>
    rw [List.intercalate_cons_cons, ih]
    simp [behindCommas]

/-- What follows a part of a container: a comma, or the line with the closing bracket. -/
theorem stops_behindCommas (texts : List (List Char)) {r : List Char}
    (hr : r.head? = some '\n') : Stops (behindCommas texts ++ r) := by
  cases texts with
  | nil => simp [Stops, behindCommas, hr, inNumber]
  | cons text rest => simp [Stops, behindCommas, inNumber]

section Parts

variable {α : Type} {write : α → List Char} {as bs : List α} {r r' : List Char}

/-- **Parts between commas are told from the whole** and from the line that follows them, if each
part is told from what follows it. -/
theorem behindCommas_append_inj {a b : α} (hwrite : ∀ x ∈ a :: as, Told write x)
    (hr : r.head? = some '\n') (hr' : r'.head? = some '\n')
    (h : write a ++ (behindCommas (as.map write) ++ r) =
      write b ++ (behindCommas (bs.map write) ++ r')) : a :: as = b :: bs ∧ r = r' := by
  induction as generalizing a b bs with
  | nil =>
    obtain ⟨rfl, hbehind⟩ := hwrite a List.mem_cons_self b _ _ (stops_behindCommas _ hr)
      (stops_behindCommas _ hr') h
    cases bs with
    | nil => exact ⟨rfl, hbehind⟩
    | cons b' bs =>
      have hhead := congrArg List.head? hbehind
      simp [behindCommas, hr] at hhead
  | cons a' as ih =>
    obtain ⟨hfirst, hrest⟩ := List.forall_mem_cons.1 hwrite
    obtain ⟨rfl, hbehind⟩ :=
      hfirst b _ _ (stops_behindCommas _ hr) (stops_behindCommas _ hr') h
    cases bs with
    | nil =>
      have hhead := congrArg List.head? hbehind
      simp [behindCommas, hr'] at hhead
    | cons b' bs =>
      simp only [behindCommas, List.map_cons, List.flatMap_cons, List.cons_append,
        List.append_assoc, List.cons.injEq, true_and] at hbehind
      obtain ⟨hparts, hend⟩ := ih hrest hbehind
      exact ⟨by rw [hparts], hend⟩

/-- A part of a container on its line. -/
def lineChars (level : Nat) (write : α → List Char) (a : α) : List Char :=
  (newline level).toList ++ write a

/-- A container at a level: nothing between its brackets, or each part on a line. -/
def containerChars (opening closing : Char) (level : Nat) (write : α → List Char) :
    List α → List Char
  | [] => [opening, closing]
  | a :: as =>
    opening :: (lineChars (level + 1) write a ++
      (behindCommas (as.map (lineChars (level + 1) write)) ++
        ((newline level).toList ++ [closing])))

theorem toList_container (opening closing : Char) (level : Nat) (write : α → String) (a : α)
    (as : List α) :
    (String.ofList [opening] ++
        String.intercalate "," ((a :: as).map fun a => newline (level + 1) ++ write a) ++
        newline level ++ String.ofList [closing]).toList =
      containerChars opening closing level (fun a => (write a).toList) (a :: as) := by
  have hlines : ((a :: as).map fun a => newline (level + 1) ++ write a).map String.toList =
      (a :: as).map (lineChars (level + 1) fun a => (write a).toList) := by
    rw [List.map_map]
    exact List.map_congr_left fun a _ => by simp [lineChars]
  have hcomma : ",".toList = [','] := rfl
  rw [String.toList_append, String.toList_append, String.toList_append, String.toList_intercalate,
    hlines, hcomma, List.map_cons, intercalate_eq_append_behindCommas]
  simp [containerChars]

theorem toList_newline (level : Nat) :
    (newline level).toList = '\n' :: List.replicate (2 * level) ' ' := by
  simp [newline]

/-- **A container is told from what follows it**, if its parts are. -/
theorem containerChars_append_inj {opening closing : Char} {level : Nat}
    (hclosing : closing ≠ '\n') (hwrite : ∀ x ∈ as, Told write x)
    (h : containerChars opening closing level write as ++ r =
      containerChars opening closing level write bs ++ r') : as = bs ∧ r = r' := by
  cases as with
  | nil =>
    cases bs with
    | nil => exact ⟨rfl, List.append_cancel_left h⟩
    | cons b bs => simp [containerChars, lineChars, toList_newline, hclosing] at h
  | cons a as =>
    cases bs with
    | nil => simp [containerChars, lineChars, toList_newline, hclosing.symm] at h
    | cons b bs =>
      have hline : ∀ x ∈ a :: as, Told (lineChars (level + 1) write) x := by
        intro x hx y s s' hs hs' heq
        rw [lineChars, lineChars, List.append_assoc, List.append_assoc] at heq
        exact hwrite x hx y s s' hs hs' (List.append_cancel_left heq)
      simp only [containerChars, List.cons_append, List.append_assoc, List.cons.injEq,
        true_and] at h
      obtain ⟨hparts, hclose⟩ := behindCommas_append_inj hline (by simp [toList_newline])
        (by simp [toList_newline]) h
      exact ⟨hparts, (List.cons.inj (List.append_cancel_left hclose)).2⟩

end Parts

theorem toList_prettyAt_array (level : Nat) (items : List Json) :
    (prettyAt level (.array items)).toList = containerChars '[' ']' level
      (fun d => (prettyAt (level + 1) d).toList) items := by
  cases items with
  | nil => simp [prettyAt, containerChars]
  | cons d rest =>
    have htext : prettyAt level (.array (d :: rest)) = "[" ++
        String.intercalate "," (prettyItems (level + 1) (d :: rest)) ++ newline level ++ "]" := rfl
    rw [htext, prettyItems_eq_map]
    exact toList_container '[' ']' level (prettyAt (level + 1)) d rest

theorem toList_prettyAt_object (level : Nat) (fields : List (String × Json)) :
    (prettyAt level (.object fields)).toList = containerChars '\x7b' '\x7d' level
      (fun f => (fieldText (level + 1) f).toList) fields := by
  cases fields with
  | nil => simp [prettyAt, containerChars]
  | cons f rest =>
    have htext : prettyAt level (.object (f :: rest)) = "\x7b" ++ String.intercalate ","
        (prettyFields (level + 1) (f :: rest)) ++ newline level ++ "\x7d" := rfl
    rw [htext, prettyFields_eq_map]
    exact toList_container '\x7b' '\x7d' level (fieldText (level + 1)) f rest

/-- **A document is told from what follows it**, if no number goes on there. -/
theorem told_prettyAt (level : Nat) (d : Json) : Told (fun d => (prettyAt level d).toList) d := by
  induction d using Json.ind generalizing level with
  | null =>
    refine told_of_kind fun d' r r' hkind hr hr' h => ?_
    cases d' <;> simp [kindName] at hkind
    exact ⟨rfl, List.append_cancel_left h⟩
  | boolean value =>
    refine told_of_kind fun d' r r' hkind hr hr' h => ?_
    cases d' <;> simp [kindName] at hkind
    case boolean value' =>
      cases value <;> cases value' <;> simp [prettyAt] at h
      · exact ⟨rfl, h⟩
      · exact ⟨rfl, h⟩
  | number value =>
    refine told_of_kind fun d' r r' hkind hr hr' h => ?_
    cases d' <;> simp [kindName] at hkind
    case number value' =>
      obtain ⟨htext, hbehind⟩ := append_inj_of_stop (fun _ => Number.inNumber_of_mem_text)
        (fun _ => Number.inNumber_of_mem_text) hr hr' h
      exact ⟨congrArg number (Number.text_injective (String.toList_inj.1 htext)), hbehind⟩
  | string value =>
    refine told_of_kind fun d' r r' hkind hr hr' h => ?_
    cases d' <;> simp [kindName] at hkind
    case string value' =>
      obtain ⟨rfl, hbehind⟩ := quote_append_inj h
      exact ⟨rfl, hbehind⟩
  | array items ih =>
    refine told_of_kind fun d' r r' hkind hr hr' h => ?_
    cases d' <;> simp [kindName] at hkind
    case array items' =>
      rw [toList_prettyAt_array, toList_prettyAt_array] at h
      obtain ⟨rfl, hbehind⟩ :=
        containerChars_append_inj (by decide) (fun d hd => ih d hd (level + 1)) h
      exact ⟨rfl, hbehind⟩
  | object fields ih =>
    refine told_of_kind fun d' r r' hkind hr hr' h => ?_
    cases d' <;> simp [kindName] at hkind
    case object fields' =>
      have hfield : ∀ f ∈ fields, Told (fun f => (fieldText (level + 1) f).toList) f := by
        intro f hf f' s s' hs hs' heq
        simp only [fieldText, String.toList_append, List.append_assoc] at heq
        obtain ⟨hname, hvalue⟩ := quote_append_inj heq
        obtain ⟨hsame, hbehind⟩ :=
          ih f hf (level + 1) f'.2 s s' hs hs' (List.append_cancel_left hvalue)
        exact ⟨Prod.ext hname hsame, hbehind⟩
      rw [toList_prettyAt_object, toList_prettyAt_object] at h
      obtain ⟨rfl, hbehind⟩ := containerChars_append_inj (by decide) hfield h
      exact ⟨rfl, hbehind⟩

/-- **No two documents have one text.** -/
theorem pretty_injective : Function.Injective pretty := by
  intro d d' h
  have hlist : (prettyAt 0 d).toList ++ [] = (prettyAt 0 d').toList ++ [] := by
    rw [← pretty, ← pretty, h]
  exact (told_prettyAt 0 d d' [] [] (by simp [Stops]) (by simp [Stops]) hlist).1

end Json

/-! ## Tables of slots -/

namespace Rendered

/-- The value of a slot, as the table of its visibility tells it. -/
def value? (rendered : Rendered) (visibility : Visibility) (slot : String) : Option Literal :=
  match visibility with
  | .witness => rendered.witness.find? slot
  | .disclosed => rendered.disclosed.find? slot

/-- A table is written with each value as it is shown. -/
theorem tableToJson_eq (table : Table Literal) :
    tableToJson table = .ofFields (table.mapValues fun value => .string value.display) := rfl

/-- Tables that are written alike have the same known values. -/
theorem find?_eq_some_of_tableToJson_eq {table table' : Table Literal}
    (hnodup : table.keys.Nodup) (hnodup' : table'.keys.Nodup)
    (h : tableToJson table = tableToJson table') {slot : String} {value : Literal}
    (hvalue : value.isSealed = false) (hslot : table.find? slot = some value) :
    table'.find? slot = some value := by
  have hkeys : ∀ table : Table Literal,
      (table.mapValues fun value => Json.string value.display).keys = table.keys := by
    intro table
    simp [Table.keys, Table.mapValues]
  obtain ⟨sorted, hsorted, hperm⟩ := Json.ofFields_eq ((hkeys table).symm ▸ hnodup)
  obtain ⟨sorted', hsorted', hperm'⟩ := Json.ofFields_eq ((hkeys table').symm ▸ hnodup')
  have hsame : sorted = sorted' := by
    rw [tableToJson_eq, tableToJson_eq, hsorted, hsorted'] at h
    exact Json.object.inj h
  -- The sorted fields are those of either table, so what one shows at a slot the other shows too.
  have hshown := (hperm.symm.trans (hsame ▸ hperm')).subset
    (List.mem_map_of_mem (Table.mem_of_find? hslot))
  obtain ⟨⟨slot', value'⟩, hmem', heq⟩ := List.mem_map.1 hshown
  simp only [Prod.mk.injEq, Json.string.injEq] at heq
  obtain ⟨rfl, hdisplay⟩ := heq
  rw [Literal.eq_of_display_eq hvalue hdisplay.symm]
  exact Table.find?_of_mem hnodup' hmem'

/-- Rendered statements with one document have the same known values behind their slots. -/
theorem value?_eq_some_of_document_eq {gadgets gadgets' : List Gadget}
    (h : (render gadgets).document = (render gadgets').document) {visibility : Visibility}
    {slot : String} {value : Literal} (hvalue : value.isSealed = false)
    (hslot : (render gadgets).value? visibility slot = some value) :
    (render gadgets').value? visibility slot = some value := by
  have hjson : (render gadgets).toJson = (render gadgets').toJson := Json.pretty_injective h
  simp only [toJson, Json.object.injEq, List.cons.injEq, Prod.mk.injEq, true_and, and_true] at hjson
  obtain ⟨hdisclosed, -, hwitness⟩ := hjson
  have hnodup : ∀ gadgets visibility, ((Slots.ofGadgets gadgets).table visibility).keys.Nodup :=
    fun gadgets => (Slots.linked_ofGadgets gadgets).nodup_keys_table
  cases visibility with
  | witness =>
    exact find?_eq_some_of_tableToJson_eq (hnodup gadgets .witness) (hnodup gadgets' .witness)
      hwitness hvalue hslot
  | disclosed =>
    exact find?_eq_some_of_tableToJson_eq (hnodup gadgets .disclosed) (hnodup gadgets' .disclosed)
      hdisclosed hvalue hslot

/-- **Written values are unambiguous.** Known values that are shown alike are equal, and no known
value is shown like a sealed one. So the written document of a statement determines the value, and
with it the type, behind every slot that has a known one. -/
theorem known_of_document :
    (∀ a b : Literal, a.isSealed = false → b.isSealed = false → a.display = b.display → a = b) ∧
    (∀ (a : Literal) (origin : Reference), a.isSealed = false →
      a.display ≠ (Literal.sealed origin).display) ∧
    ∀ gadgets gadgets' : List Gadget, (render gadgets).document = (render gadgets').document →
      ∀ (visibility : Visibility) (slot : String) (value : Literal), value.isSealed = false →
        ((render gadgets).value? visibility slot = some value ↔
          (render gadgets').value? visibility slot = some value) := by
  refine ⟨fun a b ha _ h => Literal.eq_of_display_eq ha h, fun a origin ha h => ?_,
    fun gadgets gadgets' h visibility slot value hvalue => ?_⟩
  · rw [Literal.eq_of_display_eq ha h] at ha
    cases ha
  · exact ⟨value?_eq_some_of_document_eq h hvalue, value?_eq_some_of_document_eq h.symm hvalue⟩

/-- The name on a pass, of some type, is not a given text. -/
def notNamed (type : DataType) (name : String) : List Gadget :=
  [.inequality ⟨⟨.witness, .sealed ⟨type, "pass", ⟨["name"]⟩⟩, none, none⟩, .constant (.text name)⟩]

theorem known_of_document_notNamed :
    let name := "\"<0x7f>\"\n\u0301"
    (Literal.text "7").display ≠ (Literal.integer 7).display ∧
      (Literal.text name).display ≠ (Literal.sealed ⟨.bytes, "pass", ⟨["name"]⟩⟩).display ∧
      render (notNamed .text name) ≠ render (notNamed .bytes name) ∧
      (render (notNamed .text name)).document = (render (notNamed .bytes name)).document ∧
      (render (notNamed .bytes name)).value? .disclosed "i0" = some (.text name) := by
  intro name
  have hjson : (render (notNamed .text name)).toJson = (render (notNamed .bytes name)).toJson := rfl
  have hdocument := congrArg Json.pretty hjson
  refine ⟨fun h => ?_, known_of_document.2.1 _ _ rfl, by decide +kernel, hdocument, ?_⟩
  · cases known_of_document.1 _ _ rfl rfl h
  · exact (known_of_document.2.2 _ _ hdocument .disclosed "i0" _ rfl).1 (by decide +kernel)

end Rendered

end Attestation
