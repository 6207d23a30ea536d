import Attestation.Proofs.SlotAssignment

/-!
# Rendered statements can be read back

The outline of a gadget is its kind and the arrangement of its variables: the order of a set, the
shape of a tree. A line is the outline with a slot in the place of each variable, and there is one
way to read it (`Outline.chars_injOn`): a keyword ends at the first blank, a slot at the first
character that is no letter or digit, and a tree in parentheses where its slots and parentheses say,
whatever follows it. No line has a break in it, so the text has the lines that it was joined from
(`Rendered.lines_render`). With the tables, which tell what stands behind a slot, a rendered statement
tells the outline of every gadget with the visibility and the value of every variable:
`outlines_eq_of_render_eq`.
-/

namespace Attestation

open Text
open Syntax (PredicateKind)

/-! ## Outlines -/

/-- An assertion with anything in the place of variables. -/
inductive Outline (α : Type) where
  | equality (left right : α)
  | inequality (left right : α)
  | bounds (value min max : α)
  | membership (member : α) (set : List α)
  | mimcHash (preimage image : α)
  | merkleTree (root : α) (tree : Tree α)
  deriving DecidableEq, Repr

/-- The gadget with something in the place of each variable. -/
def Gadget.outline {α : Type} (f : Variable → α) : Gadget → Outline α
  | equality g => .equality (f g.left) (f g.right)
  | inequality g => .inequality (f g.left) (f g.right)
  | bounds g => .bounds (f g.value) (f g.min) (f g.max)
  | membership g => .membership (f g.member) (g.set.map f)
  | mimcHash g => .mimcHash (f g.preimage) (f g.image)
  | merkleTree g => .merkleTree (f g.root) (g.tree.map f)

namespace Outline

variable {α β : Type}

/-- What stands in the place of variables. -/
def entries : Outline α → List α
  | equality left right => [left, right]
  | inequality left right => [left, right]
  | bounds value min max => [value, min, max]
  | membership member set => member :: set
  | mimcHash preimage image => [preimage, image]
  | merkleTree root tree => root :: tree.leaves

def map (f : α → β) : Outline α → Outline β
  | equality left right => equality (f left) (f right)
  | inequality left right => inequality (f left) (f right)
  | bounds value min max => bounds (f value) (f min) (f max)
  | membership member set => membership (f member) (set.map f)
  | mimcHash preimage image => mimcHash (f preimage) (f image)
  | merkleTree root tree => merkleTree (f root) (tree.map f)

theorem entries_outline (f : Variable → α) (g : Gadget) : (g.outline f).entries = g.vars.map f := by
  cases g <;> simp [Gadget.outline, entries, Gadget.vars, Tree.leaves_map]

theorem map_outline (f : Variable → α) (h : α → β) (g : Gadget) :
    (g.outline f).map h = g.outline (h ∘ f) := by
  cases g <;> simp [Gadget.outline, map, Tree.map_map]

theorem outline_congr {f f' : Variable → α} {g : Gadget} (h : ∀ v ∈ g.vars, f v = f' v) :
    g.outline f = g.outline f' := by
  cases g with
  | membership g =>
    obtain ⟨hmember, hset⟩ := List.forall_mem_cons.1 h
    simp only [Gadget.outline, hmember, List.map_congr_left hset]
  | merkleTree g =>
    obtain ⟨hroot, hleaves⟩ := List.forall_mem_cons.1 h
    simp only [Gadget.outline, hroot, Tree.map_congr hleaves]
  | _ g => simp_all [Gadget.vars, Gadget.outline]

theorem map_some_injective : Function.Injective (map (some : α → Option α)) := by
  have hsome : Function.Injective (some : α → Option α) := fun _ _ => Option.some.inj
  intro o o' h
  cases o <;> cases o' <;> simp_all [map, hsome.list_map.eq_iff]
  exact Tree.map_injective hsome h.2

end Outline

/-! ## Words and trees -/

/-- A text of letters and digits, with at least one of them. -/
def IsWord (w : String) : Prop :=
  w.toList ≠ [] ∧ ∀ c ∈ w.toList, c.isAlphanum = true

/-- Words behind blanks. -/
def blankChars (words : List String) : List Char :=
  words.flatMap fun w => ' ' :: w.toList

theorem head?_blankChars (words : List String) :
    ∀ c ∈ (blankChars words).head?, c.isAlphanum = false := by
  cases words with
  | nil => simp [blankChars]
  | cons w rest => simp [blankChars]

theorem blankChars_injOn {words words' : List String} (h : ∀ w ∈ words, IsWord w)
    (h' : ∀ w ∈ words', IsWord w) (heq : blankChars words = blankChars words') :
    words = words' := by
  induction words generalizing words' with
  | nil =>
    cases words' with
    | nil => rfl
    | cons w' rest' => simp [blankChars] at heq
  | cons w rest ih =>
    cases words' with
    | nil => simp [blankChars] at heq
    | cons w' rest' =>
      obtain ⟨hw, hrest⟩ := List.forall_mem_cons.1 h
      obtain ⟨hw', hrest'⟩ := List.forall_mem_cons.1 h'
      have hbehind : w.toList ++ blankChars rest = w'.toList ++ blankChars rest' :=
        (List.cons.inj heq).2
      obtain ⟨hword, hblank⟩ := append_inj_of_stop hw.2 hw'.2 (head?_blankChars rest)
        (head?_blankChars rest') hbehind
      rw [String.toList_inj.1 hword, ih hrest hrest' hblank]

namespace Tree

/-- A tree of words, its branches in parentheses. -/
def chars : Tree String → List Char
  | leaf w => w.toList
  | branch left right => '(' :: (left.chars ++ ',' :: ' ' :: (right.chars ++ [')']))

/-- **A tree of words is told from what follows it**, if that cannot go on with a word. -/
theorem chars_append_inj {s t : Tree String} {r r' : List Char} (hs : ∀ w ∈ s.leaves, IsWord w)
    (ht : ∀ w ∈ t.leaves, IsWord w) (hr : ∀ c ∈ r.head?, c.isAlphanum = false)
    (hr' : ∀ c ∈ r'.head?, c.isAlphanum = false) (h : s.chars ++ r = t.chars ++ r') :
    s = t ∧ r = r' := by
  -- A word is no branch: it does not start with a parenthesis.
  have hword : ∀ {w : String} {left right : Tree String} {r r' : List Char}, IsWord w →
      w.toList ++ r ≠ (branch left right).chars ++ r' := by
    intro w left right r r' hw heq
    obtain ⟨c, cs, hcs⟩ := List.exists_cons_of_ne_nil hw.1
    rw [hcs] at heq
    have hc : c = '(' := (List.cons.inj heq).1
    have := hw.2 c (hcs ▸ List.mem_cons_self)
    rw [hc] at this
    revert this
    decide
  induction s generalizing t r r' with
  | leaf w =>
    have hw := hs w (by simp [leaves])
    cases t with
    | leaf w' =>
      have hw' := ht w' (by simp [leaves])
      obtain ⟨hlist, hrest⟩ := append_inj_of_stop hw.2 hw'.2 hr hr' h
      exact ⟨congrArg leaf (String.toList_inj.1 hlist), hrest⟩
    | branch left' right' => exact absurd h (hword hw)
  | branch left right ihl ihr =>
    cases t with
    | leaf w' => exact absurd h.symm (hword (ht w' (by simp [leaves])))
    | branch left' right' =>
      obtain ⟨hl, hright⟩ := List.forall_mem_append.1 hs
      obtain ⟨hl', hright'⟩ := List.forall_mem_append.1 ht
      simp only [chars, List.cons_append, List.append_assoc, List.nil_append, List.cons.injEq,
        true_and] at h
      obtain ⟨rfl, hbehind⟩ := ihl hl hl' (by simp) (by simp) h
      simp only [List.cons.injEq, true_and] at hbehind
      obtain ⟨rfl, hclose⟩ := ihr hright hright' (by simp) (by simp) hbehind
      exact ⟨rfl, (List.cons.inj hclose).2⟩

theorem notMem_chars {c : Char} {t : Tree String} (hc : c ∉ ['(', ',', ' ', ')'])
    (h : ∀ w ∈ t.leaves, c ∉ w.toList) : c ∉ t.chars := by
  induction t with
  | leaf w => exact h w (by simp [leaves])
  | branch left right ihl ihr =>
    obtain ⟨hl, hr⟩ := List.forall_mem_append.1 h
    simp_all [chars]

end Tree

/-! ## Lines -/

/-- The word that lines of a kind start with. -/
def Syntax.PredicateKind.keyword : PredicateKind → String
  | .equality => "EQUALS"
  | .inequality => "NOT_EQUALS"
  | .bounds => "BOUND"
  | .membership => "SET_MEMBERSHIP"
  | .mimcHash => "MIMC_HASH"
  | .merkleTree => "MERKLE_TREE"

theorem keyword_injective : Function.Injective PredicateKind.keyword := by
  intro k k' h
  revert h
  cases k <;> cases k' <;> decide

namespace Outline

def kind {α : Type} : Outline α → PredicateKind
  | equality _ _ => .equality
  | inequality _ _ => .inequality
  | bounds _ _ _ => .bounds
  | membership _ _ => .membership
  | mimcHash _ _ => .mimcHash
  | merkleTree _ _ => .merkleTree

/-- The line behind its keyword. The image of a hash stands before the preimage. -/
def arguments : Outline String → List Char
  | equality left right => blankChars [left, right]
  | inequality left right => blankChars [left, right]
  | bounds value min max => blankChars [value, min, max]
  | membership member set => blankChars (member :: set)
  | mimcHash preimage image => blankChars [image, preimage]
  | merkleTree root tree => blankChars [root] ++ ' ' :: tree.chars

/-- The line of an outline. -/
def chars (o : Outline String) : List Char :=
  o.kind.keyword.toList ++ o.arguments

theorem head?_arguments (o : Outline String) : o.arguments.head? = some ' ' := by
  cases o <;> rfl

theorem arguments_injOn {o o' : Outline String} (hkind : o.kind = o'.kind)
    (h : ∀ w ∈ o.entries, IsWord w) (h' : ∀ w ∈ o'.entries, IsWord w)
    (heq : o.arguments = o'.arguments) : o = o' := by
  cases o <;> cases o' <;> cases hkind
  case equality.equality.refl => simpa [entries] using blankChars_injOn h h' heq
  case inequality.inequality.refl => simpa [entries] using blankChars_injOn h h' heq
  case bounds.bounds.refl => simpa [entries] using blankChars_injOn h h' heq
  case membership.membership.refl => simpa [entries] using blankChars_injOn h h' heq
  case mimcHash.mimcHash.refl preimage image preimage' image' =>
    have hwords : ∀ w ∈ [image, preimage], IsWord w := by simp_all [entries]
    have hwords' : ∀ w ∈ [image', preimage'], IsWord w := by simp_all [entries]
    simpa [and_comm] using blankChars_injOn hwords hwords' heq
  case merkleTree.merkleTree.refl root tree root' tree' =>
    obtain ⟨hroot, htree⟩ := List.forall_mem_cons.1 h
    obtain ⟨hroot', htree'⟩ := List.forall_mem_cons.1 h'
    simp only [arguments, blankChars, List.flatMap_cons, List.flatMap_nil, List.append_nil,
      List.cons_append, List.cons.injEq, true_and] at heq
    obtain ⟨hword, hbehind⟩ := append_inj_of_stop hroot.2 hroot'.2 (by simp) (by simp) heq
    have hchars : tree.chars ++ [] = tree'.chars ++ [] := by
      simpa using hbehind
    rw [String.toList_inj.1 hword, (Tree.chars_append_inj htree htree' (by simp) (by simp) hchars).1]

/-- **There is one way to read a line.** -/
theorem chars_injOn {o o' : Outline String} (h : ∀ w ∈ o.entries, IsWord w)
    (h' : ∀ w ∈ o'.entries, IsWord w) (heq : o.chars = o'.chars) : o = o' := by
  have hkeyword : ∀ kind : PredicateKind, ∀ c ∈ kind.keyword.toList, (c != ' ') = true := by
    intro kind
    cases kind <;> simp [Syntax.PredicateKind.keyword]
  obtain ⟨hkinds, harguments⟩ := append_inj_of_stop (hkeyword o.kind) (hkeyword o'.kind)
    (by simp [head?_arguments]) (by simp [head?_arguments]) heq
  exact arguments_injOn (keyword_injective (String.toList_inj.1 hkinds)) h h' harguments

theorem chars_ne_nil (o : Outline String) : o.chars ≠ [] := by
  cases o <;> simp [chars, kind, PredicateKind.keyword]

/-- No line has a break in it. -/
theorem notMem_chars {o : Outline String} (h : ∀ w ∈ o.entries, IsWord w) {c : Char}
    (hc : c = '\n' ∨ c = '\r') : c ∉ o.chars := by
  have hother : c.isAlphanum = false ∧ c ∉ ['(', ',', ' ', ')'] := by
    rcases hc with rfl | rfl <;> decide
  have hword : ∀ w ∈ o.entries, c ∉ w.toList := by
    intro w hw hmem
    rw [(h w hw).2 c hmem] at hother
    cases hother.1
  have hkeyword : c ∉ o.kind.keyword.toList := by
    rcases hc with rfl | rfl <;> cases o.kind <;> decide
  have harguments : c ∉ o.arguments := by
    cases o with
    | merkleTree root tree =>
      obtain ⟨hroot, htree⟩ := List.forall_mem_cons.1 hword
      have := Tree.notMem_chars hother.2 htree
      simp_all [arguments, blankChars]
    | _ => simp_all [arguments, blankChars, entries]
  simp [chars, hkeyword, harguments]

end Outline

theorem Membership.flatMap_elementPieces (f : Variable → String) (position : Nat)
    (elements : List Variable) :
    (elementPieces position elements).flatMap (fun p => (p.filled f).toList) =
      blankChars (elements.map f) := by
  induction elements generalizing position with
  | nil => rfl
  | cons e rest ih =>
    simp only [elementPieces, List.flatMap_cons, ih]
    simp [Piece.filled, blankChars]

theorem MerkleTree.flatMap_treePieces (f : Variable → String) (position : Nat)
    (t : Tree Variable) :
    (treePieces position t).1.flatMap (fun p => (p.filled f).toList) = (t.map f).chars := by
  induction t generalizing position with
  | leaf v => simp [treePieces, Piece.filled, Tree.map, Tree.chars]
  | branch left right ihl ihr =>
    simp only [treePieces, List.cons_append, List.append_assoc, List.flatMap_cons,
      List.flatMap_append, ihl, ihr]
    simp [Piece.filled, Tree.map, Tree.chars]

/-- The line of a gadget is the line of its outline. -/
theorem Gadget.toList_line (f : Variable → String) (g : Gadget) :
    (g.line f).toList = (g.outline f).chars := by
  rw [line, String.toList_join, List.flatMap_map]
  cases g with
  | membership g =>
    simp only [layout, List.cons_append, List.nil_append, List.flatMap_cons,
      Membership.flatMap_elementPieces]
    simp [Piece.filled, outline, Outline.chars, Outline.kind, PredicateKind.keyword,
      Outline.arguments, blankChars]
  | merkleTree g =>
    simp only [layout, List.cons_append, List.nil_append, List.flatMap_cons,
      MerkleTree.flatMap_treePieces]
    simp [Piece.filled, outline, Outline.chars, Outline.kind, PredicateKind.keyword,
      Outline.arguments, blankChars]
  | _ g =>
    simp [layout, Piece.filled, outline, Outline.chars, Outline.kind, PredicateKind.keyword,
      Outline.arguments, blankChars]

/-! ## Lines of a text -/

namespace Text

variable {line : List Char}

theorem lines_append_newline (h : '\n' ∉ line) (cs : List Char) :
    lines (line ++ '\n' :: cs) = (line ++ ['\n']) :: lines cs := by
  induction line with
  | nil => rfl
  | cons c rest ih =>
    obtain ⟨hc, hrest⟩ := not_or.1 fun hmem => h (List.mem_cons.2 hmem)
    rw [List.cons_append, lines, if_neg (Ne.symm hc), ih hrest]
    rfl

theorem lines_eq_singleton (h : '\n' ∉ line) (hne : line ≠ []) : lines line = [line] := by
  induction line with
  | nil => exact absurd rfl hne
  | cons c rest ih =>
    obtain ⟨hc, hrest⟩ := not_or.1 fun hmem => h (List.mem_cons.2 hmem)
    rw [lines, if_neg (Ne.symm hc)]
    cases rest with
    | nil => rfl
    | cons d rest => rw [ih hrest (List.cons_ne_nil d rest)]

theorem withoutBreak_append_newline (h : '\r' ∉ line) : withoutBreak (line ++ ['\n']) = line := by
  rw [withoutBreak, List.reverse_append, List.reverse_singleton, List.singleton_append]
  split
  case h_1 before hbefore =>
    refine absurd (List.mem_reverse.1 ?_) h
    rw [(List.cons.inj hbefore).2]
    exact List.mem_cons_self
  case h_2 before _ hbefore => rw [← (List.cons.inj hbefore).2, List.reverse_reverse]
  case h_3 hother => exact absurd rfl (hother _)

theorem withoutBreak_eq_self (h : '\n' ∉ line) : withoutBreak line = line := by
  rw [withoutBreak]
  split
  case h_3 => rfl
  all_goals
    rename_i hreverse
    refine absurd (List.mem_reverse.1 ?_) h
    rw [hreverse]
    exact List.mem_cons_self

/-- **Lines that are joined by newlines are read back**, if they are not empty and have no breaks. -/
theorem lines_intercalate {parts : List (List Char)}
    (h : ∀ line ∈ parts, line ≠ [] ∧ '\n' ∉ line ∧ '\r' ∉ line) :
    (lines (['\n'].intercalate parts)).map withoutBreak = parts := by
  induction parts with
  | nil => rfl
  | cons line rest ih =>
    obtain ⟨⟨hne, hnewline, hreturn⟩, hrest⟩ := List.forall_mem_cons.1 h
    cases rest with
    | nil =>
      rw [List.intercalate_singleton, lines_eq_singleton hnewline hne, List.map_singleton,
        withoutBreak_eq_self hnewline]
    | cons next rest =>
      rw [List.intercalate_cons_cons, List.append_assoc, List.singleton_append,
        lines_append_newline hnewline, List.map_cons, withoutBreak_append_newline hreturn, ih hrest]

end Text

/-! ## Statements -/

theorem map_injOn {α β : Type} {f : α → β} {l l' : List α}
    (hf : ∀ a ∈ l, ∀ b ∈ l', f a = f b → a = b) (h : l.map f = l'.map f) : l = l' := by
  induction l generalizing l' with
  | nil => exact (List.map_eq_nil_iff.1 h.symm).symm
  | cons a rest ih =>
    obtain ⟨b, rest', rfl, hb, hrest⟩ := List.map_eq_cons_iff.1 h.symm
    rw [hf a List.mem_cons_self b List.mem_cons_self hb.symm,
      ih (fun c hc d hd => hf c (List.mem_cons_of_mem a hc) d (List.mem_cons_of_mem b hd))
        hrest.symm]

theorem Slots.Linked.isWord_slotOf {slots : Slots} (h : slots.Linked) {v : Variable}
    (hv : slots.Holds v) : IsWord (slots.slotOf v) := by
  refine ⟨?_, h.isAlphanum_of_mem_slotOf v⟩
  obtain ⟨n, hn⟩ := h.exists_name hv
  rw [hn]
  cases v.visibility <;> simp [name, letter]

namespace Rendered

variable {gadgets gadgets' : List Gadget}

/-- The outlines of gadgets with their slots. -/
def slotOutlines (gadgets : List Gadget) : List (Outline String) :=
  gadgets.map (Gadget.outline (Slots.ofGadgets gadgets).slotOf)

theorem isWord_of_mem_slotOutlines {o : Outline String} (ho : o ∈ slotOutlines gadgets) :
    ∀ w ∈ o.entries, IsWord w := by
  obtain ⟨g, hg, rfl⟩ := List.mem_map.1 ho
  intro w hw
  rw [Outline.entries_outline] at hw
  obtain ⟨v, hv, rfl⟩ := List.mem_map.1 hw
  exact (Slots.linked_ofGadgets gadgets).isWord_slotOf (Slots.holds_ofGadgets g hg v hv)

/-- The text has a line for the outline of each gadget with its slots. -/
theorem toList_text (gadgets : List Gadget) : (render gadgets).text.toList =
    ['\n'].intercalate ((slotOutlines gadgets).map Outline.chars) := by
  rw [text_render, String.toList_intercalate, slotOutlines, List.map_map, List.map_map]
  refine congrArg _ (List.map_congr_left fun g _ => ?_)
  exact Gadget.toList_line _ g

/-- The characters of the lines. -/
theorem map_withoutBreak_lines (gadgets : List Gadget) :
    (Text.lines (render gadgets).text.toList).map withoutBreak =
      (slotOutlines gadgets).map Outline.chars := by
  rw [toList_text]
  refine lines_intercalate fun line hline => ?_
  obtain ⟨o, ho, rfl⟩ := List.mem_map.1 hline
  have hwords := isWord_of_mem_slotOutlines ho
  exact ⟨o.chars_ne_nil, Outline.notMem_chars hwords (.inl rfl),
    Outline.notMem_chars hwords (.inr rfl)⟩

/-- **The text has the lines of the gadgets**, each with the slots that its variables have in the
end. -/
theorem lines_render (gadgets : List Gadget) :
    (render gadgets).lines = gadgets.map (Gadget.line (Slots.ofGadgets gadgets).slotOf) := by
  have hlines : (render gadgets).lines =
      ((Text.lines (render gadgets).text.toList).map withoutBreak).map String.ofList := by
    rw [List.map_map]
    rfl
  rw [hlines, map_withoutBreak_lines, slotOutlines, List.map_map, List.map_map]
  refine List.map_congr_left fun g _ => ?_
  rw [Function.comp_apply, Function.comp_apply, ← Gadget.toList_line, String.ofList_toList]

/-- The text tells the outlines of the gadgets with their slots. -/
theorem slotOutlines_eq_of_text_eq (h : (render gadgets).text = (render gadgets').text) :
    slotOutlines gadgets = slotOutlines gadgets' := by
  have hchars : (slotOutlines gadgets).map Outline.chars =
      (slotOutlines gadgets').map Outline.chars := by
    rw [← map_withoutBreak_lines, ← map_withoutBreak_lines, h]
  refine map_injOn (fun o ho o' ho' => ?_) hchars
  exact Outline.chars_injOn (isWord_of_mem_slotOutlines ho) (isWord_of_mem_slotOutlines ho')

/-- The tables turn the slots of outlines into what stands behind them. -/
theorem map_identity?_outlines (gadgets : List Gadget) :
    (slotOutlines gadgets).map (Outline.map (render gadgets).identity?) =
      (gadgets.map (Gadget.outline Variable.identity)).map (Outline.map some) := by
  rw [slotOutlines, List.map_map, List.map_map]
  refine List.map_congr_left fun g hg => ?_
  rw [Function.comp_apply, Function.comp_apply, Outline.map_outline, Outline.map_outline]
  exact Outline.outline_congr fun v hv => identity?_slotOf hg hv

/-- **A rendered statement tells what its gadgets say**: gadgets with the same text and the same
tables agree one by one in kind, in the arrangement of their variables, and in the visibility and
the value of each. -/
theorem outlines_eq_of_render_eq (htext : (render gadgets).text = (render gadgets').text)
    (hwitness : (render gadgets).witness = (render gadgets').witness)
    (hdisclosed : (render gadgets).disclosed = (render gadgets').disclosed) :
    gadgets.map (Gadget.outline Variable.identity) =
      gadgets'.map (Gadget.outline Variable.identity) := by
  have hidentity : (render gadgets).identity? = (render gadgets').identity? := by
    funext slot
    rw [identity?, identity?, hwitness, hdisclosed]
  have hsome : (gadgets.map (Gadget.outline Variable.identity)).map (Outline.map some) =
      (gadgets'.map (Gadget.outline Variable.identity)).map (Outline.map some) := by
    rw [← map_identity?_outlines, ← map_identity?_outlines, hidentity,
      slotOutlines_eq_of_text_eq htext]
  exact Outline.map_some_injective.list_map hsome

/-- A set of eleven and a tree of four, about variables that were written or read somewhere. -/
def setAndTree (position : Option Position) (reference : Option Reference) : List Gadget :=
  let hash (n : UInt8) : Variable := ⟨.witness, .bytes [n], position, reference⟩
  [.membership ⟨⟨.witness, .integer 10, position, reference⟩,
      (List.range 11).map fun n => ⟨.disclosed, .integer n, position, none⟩⟩,
    .merkleTree ⟨.constant (.bytes [0]),
      .branch (.branch (.leaf (hash 1)) (.leaf (hash 2))) (.branch (.leaf (hash 1)) (.leaf (hash 3)))⟩]

theorem outlines_eq_of_render_eq_setAndTree :
    let here := setAndTree (some ⟨0, 4, 9, 1⟩) none
    let there := setAndTree none (some ⟨.integer, "pass", ⟨["age"]⟩⟩)
    here ≠ there ∧ (render here).text = (render there).text ∧
      here.map (Gadget.outline Variable.identity) = there.map (Gadget.outline Variable.identity) := by
  -- With the holes filled all at once there is less to compute.
  have htext : (render (setAndTree (some ⟨0, 4, 9, 1⟩) none)).text =
      (render (setAndTree none (some ⟨.integer, "pass", ⟨["age"]⟩⟩))).text := by
    rw [text_render, text_render]
    refine congrArg (String.intercalate "\n") ?_
    decide +kernel
  refine ⟨by decide +kernel, htext, ?_⟩
  exact outlines_eq_of_render_eq htext (by decide +kernel) (by decide +kernel)

end Rendered

end Attestation
