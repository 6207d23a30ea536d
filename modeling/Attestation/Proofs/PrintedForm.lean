import Attestation.Proofs.Filling

/-!
# What a gadget is printed as

A template says how a gadget is to be printed: with the description of its variable in the place of
each hole (`Gadget.fillAtOnce`). But the names of holes are replaced one after the other, each
wherever it occurs in the line so far, and descriptions can have names of holes in them. So the line
is settled from left to right (`Piece.settle`). The description for a hole is put behind what is
settled, and it also takes the place of the name of the hole in what is settled: in a description,
or across the end of one. Nothing to the right is touched, since names of holes differ.

This is the line that the template says, if no hole has a name that occurs in the line to its left
(`Gadget.text_eq_settle`).
-/

namespace Attestation

open Text

/-! ## Replacing, around a character that a pattern can only start with -/

namespace Text

variable {c : Char} {pattern replacement : List Char}

theorem replaceFrom_eq_self {text : List Char} (h : ¬ c :: pattern <:+: text) :
    replaceFrom (c :: pattern) replacement 0 text = text := by
  induction text with
  | nil => rfl
  | cons d text ih =>
    have hstart : ¬ (c :: pattern).isPrefixOf (d :: text) = true := fun hp =>
      h (List.isPrefixOf_iff_prefix.1 hp).isInfix
    rw [replaceFrom, if_neg hstart, ih fun hi => h (hi.trans (List.suffix_cons d text).isInfix)]

/-- An occurrence does not reach across a character that is only at its start. -/
theorem prefix_append_cons_iff (hc : c ∉ pattern) {text : List Char} (htext : text ≠ [])
    (rest : List Char) : c :: pattern <+: text ++ c :: rest ↔ c :: pattern <+: text := by
  refine ⟨fun h => ?_, fun h => h.trans (List.prefix_append _ _)⟩
  rcases List.prefix_or_prefix_of_prefix h (List.prefix_append _ _) with hp | ⟨behind, hbehind⟩
  · exact hp
  cases behind with
  | nil =>
    rw [List.append_nil] at hbehind
    exact hbehind ▸ List.prefix_refl _
  | cons d behind =>
    -- the occurrence would go on with the character behind the text
    rw [← hbehind, List.prefix_append_right_inj, List.cons_prefix_cons] at h
    obtain ⟨rfl, -⟩ := h
    cases text with
    | nil => exact absurd rfl htext
    | cons e text =>
      obtain ⟨-, htail⟩ := List.cons.inj hbehind
      exact absurd (by rw [← htail]; simp) hc

theorem replaceFrom_append_cons (hc : c ∉ pattern) (rest : List Char) {text : List Char}
    {skip : Nat} (hskip : skip ≤ text.length) :
    replaceFrom (c :: pattern) replacement skip (text ++ c :: rest) =
      replaceFrom (c :: pattern) replacement skip text ++
        replaceFrom (c :: pattern) replacement 0 (c :: rest) := by
  induction text generalizing skip with
  | nil =>
    obtain rfl : skip = 0 := Nat.le_zero.1 hskip
    rfl
  | cons d text ih =>
    cases skip with
    | succ skip => exact ih (Nat.le_of_succ_le_succ hskip)
    | zero =>
      have hiff := prefix_append_cons_iff hc (List.cons_ne_nil d text) rest
      rw [← List.isPrefixOf_iff_prefix, ← List.isPrefixOf_iff_prefix, List.cons_append] at hiff
      rw [List.cons_append, replaceFrom, replaceFrom]
      by_cases hstart : (c :: pattern).isPrefixOf (d :: text) = true
      · have hlength := (List.isPrefixOf_iff_prefix.1 hstart).length_le
        rw [if_pos hstart, if_pos (hiff.2 hstart), ih (by simpa using hlength),
          List.append_assoc]
      · rw [if_neg hstart, if_neg fun h => hstart (hiff.1 h), ih (Nat.zero_le _), List.cons_append]

/-! ## Replacing all patterns at once -/

/-- Copies a text, putting in the place of a pattern what is given for it. What is put in is not
searched; the first `skip` characters belong to an occurrence that is already replaced. -/
def substituteFrom (texts : List (List Char × List Char)) : Nat → List Char → List Char
  | _, [] => []
  | skip + 1, _ :: cs => substituteFrom texts skip cs
  | 0, c :: cs =>
    match texts.find? fun entry => entry.1.isPrefixOf (c :: cs) with
    | some (pattern, replacement) => replacement ++ substituteFrom texts (pattern.length - 1) cs
    | none => c :: substituteFrom texts 0 cs

variable {texts : List (List Char × List Char)}

theorem substituteFrom_skip (skipped rest : List Char) :
    substituteFrom texts skipped.length (skipped ++ rest) = substituteFrom texts 0 rest := by
  induction skipped with
  | nil => rfl
  | cons d skipped ih => exact ih

theorem substituteFrom_append_of_find? {rest : List Char}
    (h : texts.find? (fun entry => entry.1.isPrefixOf (c :: pattern ++ rest)) =
      some (c :: pattern, replacement)) :
    substituteFrom texts 0 (c :: pattern ++ rest) = replacement ++ substituteFrom texts 0 rest := by
  rw [List.cons_append] at h ⊢
  rw [substituteFrom, h]
  exact congrArg (replacement ++ ·) (substituteFrom_skip pattern rest)

/-- A text without the character that all patterns start with is copied. -/
theorem substituteFrom_append_of_notMem
    (hstart : ∀ entry ∈ texts, ∃ pattern, entry.1 = c :: pattern) {text : List Char} (h : c ∉ text)
    (rest : List Char) :
    substituteFrom texts 0 (text ++ rest) = text ++ substituteFrom texts 0 rest := by
  induction text with
  | nil => rfl
  | cons d text ih =>
    have hnone : texts.find? (fun entry => entry.1.isPrefixOf (d :: (text ++ rest))) = none := by
      rw [List.find?_eq_none]
      intro entry hentry
      obtain ⟨pattern, hpattern⟩ := hstart entry hentry
      simp [hpattern, show c ≠ d from fun hcd => h (hcd ▸ List.mem_cons_self)]
    rw [List.cons_append, substituteFrom, hnone, ih fun hmem => h (List.mem_cons_of_mem d hmem)]
    rfl

end Text

/-! ## Filling all holes at once -/

/-- What is put in the place of which hole, as a template shows it. -/
def substitutions (texts : List (String × String)) : List (List Char × List Char) :=
  texts.map fun (name, text) => ((placeholder name).toList, text.toList)

/-- The line with the text for its name in the place of each hole. -/
def Gadget.fillAtOnce (line : String) (texts : List (String × String)) : String :=
  String.ofList (substituteFrom (substitutions texts) 0 line.toList)

/-- At a hole, the text for its name is found. -/
theorem find?_substitutions {texts : List (String × String)}
    (htexts : ∀ entry ∈ texts, ')' ∉ entry.1.toList) {name : String} (hname : ')' ∉ name.toList)
    (rest : List Char) :
    (substitutions texts).find?
        (fun entry => entry.1.isPrefixOf ((placeholder name).toList ++ rest)) =
      (Table.find? name texts).map fun text => ((placeholder name).toList, text.toList) := by
  induction texts with
  | nil => rfl
  | cons entry texts ih =>
    obtain ⟨other, text⟩ := entry
    have hothers := ih fun e he => htexts e (List.mem_cons_of_mem _ he)
    change List.find? _ (((placeholder other).toList, text.toList) :: substitutions texts) = _
    rw [List.find?_cons, Table.find?]
    split_ifs with h
    · subst h
      have hstart := List.prefix_append (placeholder other).toList rest
      rw [List.isPrefixOf_iff_prefix.2 hstart]
      rfl
    · have hstart := not_placeholder_prefix (htexts _ List.mem_cons_self) hname (Ne.symm h) rest
      rw [← List.isPrefixOf_iff_prefix, Bool.not_eq_true] at hstart
      rw [hstart]
      exact hothers

/-- **Filling all holes of a template at once fills each with the text for its name.** -/
theorem Piece.substituteFrom_template {texts : List (String × String)} {f : Variable → String}
    (htexts : ∀ entry ∈ texts, ')' ∉ entry.1.toList) {pieces : List Piece}
    (h : ∀ p ∈ pieces, p.Plain)
    (hfind : ∀ name v, hole name v ∈ pieces → Table.find? name texts = some (f v)) :
    substituteFrom (substitutions texts) 0 (pieces.flatMap (·.template.toList)) =
      pieces.flatMap fun p => (p.filled f).toList := by
  have hstart : ∀ entry ∈ substitutions texts, ∃ pattern, entry.1 = '%' :: pattern := by
    intro entry hentry
    obtain ⟨binding, -, rfl⟩ := List.mem_map.1 hentry
    exact ⟨_, toList_placeholder binding.1⟩
  induction pieces with
  | nil => rfl
  | cons p rest ih =>
    have hp := h p List.mem_cons_self
    have hrest := ih (fun q hq => h q (List.mem_cons_of_mem p hq))
      fun name v hv => hfind name v (List.mem_cons_of_mem p hv)
    rw [List.flatMap_cons, List.flatMap_cons, ← hrest]
    cases p with
    | words w => exact substituteFrom_append_of_notMem hstart hp _
    | hole name v =>
      have hfound := find?_substitutions htexts hp.2 (rest.flatMap (·.template.toList))
      rw [hfind name v List.mem_cons_self, toList_placeholder] at hfound
      rw [template, toList_placeholder]
      exact substituteFrom_append_of_find? hfound

namespace Gadget

theorem fillAtOnce_eq_line (g : Gadget) (f : Variable → String) :
    fillAtOnce g.template (g.bindings.map fun (name, v) => (name, f v)) = g.line f := by
  have htexts : ∀ entry ∈ g.bindings.map fun (name, v) => (name, f v), ')' ∉ entry.1.toList := by
    intro entry hentry
    obtain ⟨binding, hbinding, rfl⟩ := List.mem_map.1 hentry
    exact (g.plain_layout _ (mem_bindings_iff.1 hbinding)).2
  apply String.toList_inj.1
  rw [fillAtOnce, String.toList_ofList, template_eq, line, String.toList_join, List.flatMap_map,
    String.toList_join, List.flatMap_map]
  exact Piece.substituteFrom_template htexts g.plain_layout fun name v hv => find?_bindings hv f

end Gadget

/-! ## Filling hole by hole -/

/-- The name of a hole is replaced to the left of the hole, in its place and to the right of it. -/
theorem replaceAll_append_placeholder {name : String} (hname : '%' ∉ name.toList)
    (text line rest : String) :
    replaceAll (placeholder name) text (line ++ (placeholder name ++ rest)) =
      replaceAll (placeholder name) text line ++ text ++
        replaceAll (placeholder name) text rest := by
  have hbehind : '%' ∉ '(' :: (name.toList ++ [')']) := by simpa using hname
  apply String.toList_inj.1
  simp only [replaceAll, String.toList_ofList, String.toList_append, List.append_assoc]
  rw [← replaceFrom_placeholder_self, toList_placeholder]
  exact replaceFrom_append_cons hbehind _ (Nat.zero_le _)

namespace Piece

variable {f : Variable → String}

/-- Goes on with a line by a part. For a hole, its name is replaced in the line as well. -/
def settle (f : Variable → String) (line : String) : Piece → String
  | words text => line ++ text
  | hole name v => replaceAll (placeholder name) (f v) line ++ f v

theorem plug_of_notMem {name text : String} {pieces : List Piece}
    (h : name ∉ Table.keys (pieces.filterMap binding?)) : pieces.map (plug name text) = pieces := by
  conv_rhs => rw [← List.map_id pieces]
  refine List.map_congr_left fun p hp => ?_
  cases p with
  | words w => rfl
  | hole other v =>
    have hmem : other ∈ Table.keys (pieces.filterMap binding?) :=
      List.mem_map.2 ⟨(other, v), List.mem_filterMap.2 ⟨_, hp, rfl⟩, rfl⟩
    exact if_neg fun heq : other = name => h (heq ▸ hmem)

/-- **Filling hole by hole settles the line from left to right.** -/
theorem fillHoles_append_template {pieces : List Piece} (h : ∀ p ∈ pieces, p.Plain)
    (hkeys : (Table.keys (pieces.filterMap binding?)).Nodup) (line : String) :
    Gadget.fillHoles (line ++ String.join (pieces.map template))
        ((pieces.filterMap binding?).map fun (name, v) => (name, f v)) =
      pieces.foldl (settle f) line := by
  induction pieces generalizing line with
  | nil => simp [Gadget.fillHoles]
  | cons p rest ih =>
    have hrest : ∀ p ∈ rest, p.Plain := fun q hq => h q (List.mem_cons_of_mem p hq)
    rw [List.map_cons, String.join_cons, List.foldl_cons]
    cases p with
    | words w =>
      rw [filterMap_binding?_words] at hkeys ⊢
      rw [← String.append_assoc]
      exact ih hrest hkeys _
    | hole name v =>
      rw [filterMap_binding?_hole] at hkeys ⊢
      obtain ⟨hfresh, hkeys⟩ := List.nodup_cons.1 hkeys
      obtain ⟨hpercent, hparen⟩ := h _ List.mem_cons_self
      have hreplace : replaceAll (placeholder name) (f v)
          (line ++ (placeholder name ++ String.join (rest.map template))) =
            settle f line (hole name v) ++ String.join (rest.map template) := by
        rw [replaceAll_append_placeholder hpercent, replaceAll_template hparen _ hrest,
          plug_of_notMem hfresh]
        rfl
      rw [← ih hrest hkeys, ← hreplace]
      rfl

/-- Nothing to the left of a hole is touched if the name of the hole does not occur there. -/
theorem foldl_settle {pieces : List Piece} {line : String}
    (h : ∀ before name v after, pieces = before ++ hole name v :: after →
      ¬ (placeholder name).toList <:+: (line ++ String.join (before.map (filled f))).toList) :
    pieces.foldl (settle f) line = line ++ String.join (pieces.map (filled f)) := by
  induction pieces generalizing line with
  | nil => simp
  | cons p rest ih =>
    have hp : settle f line p = line ++ p.filled f := by
      cases p with
      | words w => rfl
      | hole name v =>
        have hleft := h [] name v rest rfl
        rw [List.map_nil, String.join_nil, String.append_empty, toList_placeholder] at hleft
        rw [settle, replaceAll, toList_placeholder, replaceFrom_eq_self hleft, String.ofList_toList]
        rfl
    rw [List.foldl_cons, hp, List.map_cons, String.join_cons, ← String.append_assoc]
    refine ih fun before name v after hsplit => ?_
    have hleft := h (p :: before) name v after (by rw [hsplit, List.cons_append])
    rwa [List.map_cons, String.join_cons, ← String.append_assoc] at hleft

end Piece

namespace Gadget

/-- No hole has a name that occurs in the line to its left. -/
def Undisturbed (g : Gadget) : Prop :=
  ∀ before name v after, g.layout = before ++ .hole name v :: after →
    ¬ (placeholder name).toList <:+:
      (String.join (before.map (Piece.filled Variable.describe))).toList

/-- **A gadget is printed as its line is settled from left to right.** This is its template with all
holes filled at once by the descriptions of their own variables, as long as no hole has a name that
occurs in the line to its left. -/
theorem text_eq_settle (g : Gadget) :
    g.text = g.layout.foldl (Piece.settle Variable.describe) "" ∧
    (fillAtOnce g.template (g.bindings.map fun (name, v) => (name, v.describe)) =
      g.line Variable.describe) ∧
    (g.Undisturbed → g.text =
      fillAtOnce g.template (g.bindings.map fun (name, v) => (name, v.describe))) := by
  have hsettle : g.text = g.layout.foldl (Piece.settle Variable.describe) "" := by
    have hkeys := g.nodup_keys_bindings
    rw [bindings_eq] at hkeys
    rw [text, template_eq, bindings_eq, ← Piece.fillHoles_append_template g.plain_layout hkeys,
      String.empty_append]
  refine ⟨hsettle, g.fillAtOnce_eq_line _, fun h => ?_⟩
  rw [hsettle, fillAtOnce_eq_line, line, Piece.foldl_settle, String.empty_append]
  intro before name v after hsplit
  rw [String.empty_append]
  exact h before name v after hsplit

/-- Alice does not live in a city with a given name. -/
def livesElsewhere (city : String) : Gadget :=
  .inequality
    ⟨.constant (.text city),
      ⟨.witness, .sealed ⟨.text, "alice", ⟨["city"]⟩⟩, none, some ⟨.text, "alice", ⟨["city"]⟩⟩⟩⟩

/-- The name of a hole to the left does no harm. -/
theorem text_eq_settle_livesElsewhere :
    (livesElsewhere "%(left)").Undisturbed ∧
      (livesElsewhere "%(left)").text = "NOT_EQUALS \"%(left)\" alice.city" := by
  have hundisturbed : (livesElsewhere "%(left)").Undisturbed := by
    intro before name v after hsplit
    -- the second and the fourth part of the line are holes
    rcases before with _ | ⟨_, _ | ⟨_, _ | ⟨_, _ | ⟨_, before⟩⟩⟩⟩
    · cases hsplit
    · cases hsplit
      decide +kernel
    · cases hsplit
    · cases hsplit
      decide +kernel
    · simp [livesElsewhere, layout] at hsplit
  refine ⟨hundisturbed, ((livesElsewhere "%(left)").text_eq_settle.2.2 hundisturbed).trans ?_⟩
  decide +kernel

/-- **A gadget can be printed otherwise than its template says**: the name of a hole to the right is
taken for the hole. -/
theorem text_livesElsewhere_ne :
    (livesElsewhere "%(right)").text = "NOT_EQUALS \"alice.city\" alice.city" ∧
      fillAtOnce (livesElsewhere "%(right)").template
        ((livesElsewhere "%(right)").bindings.map fun (name, v) => (name, v.describe)) =
          "NOT_EQUALS \"%(right)\" alice.city" := by
  decide +kernel

end Gadget

end Attestation
