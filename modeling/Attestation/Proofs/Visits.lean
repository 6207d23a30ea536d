import Attestation.Compiler.Resolution
import Attestation.Proofs.Outcome

/-!
# Visits

Resolving a statement is a walk through its operands that notes the aliases they refer to, and then
takes out, one by one, the subjects whose alias was not noted. This module takes the two apart:

* a walk that is no longer interested in aliases is a plain computation (`Scope.element`,
  `Scope.fields`, `Scope.gadget`), and what it has noted are the aliases of the operands it passed,
  wherever in lists and trees they stand (`Visit.Notes`, `Scope.run_visits`);
* the subjects that are left are those with a noted alias, in their order (`Scope.dropUnused_eq`).
-/

namespace Attestation

open Syntax

/-! ## Walks that note aliases -/

/-- The aliases noted after further ones. -/
def noting (used names : List String) : List String :=
  names.foldl (fun used name => used.insert name) used

theorem noting_append (used names names' : List String) :
    noting used (names ++ names') = noting (noting used names) names' :=
  List.foldl_append

theorem mem_noting {used names : List String} {name : String} :
    name ∈ noting used names ↔ name ∈ used ∨ name ∈ names := by
  induction names generalizing used with
  | nil => simp [noting]
  | cons first rest ih =>
    have hstep : noting used (first :: rest) = noting (used.insert first) rest := rfl
    rw [hstep, ih, List.mem_insert_iff, List.mem_cons]
    tauto

namespace Visit

variable {α β γ : Type}

/-- The walk comes to what a plain computation comes to, and notes certain aliases if it
succeeds. -/
def Notes (x : Visit α) (y : Except Diagnostic α) (names : List String) : Prop :=
  ∀ used, x.run used = y.map fun a => (a, noting used names)

theorem Notes.pure (a : α) : Notes (pure a) (.ok a) [] :=
  fun _ => rfl

theorem Notes.lift (y : Except Diagnostic α) : Notes (liftM y) y [] := by
  intro used
  cases y <;> rfl

theorem Notes.bind {x : Visit α} {y : Except Diagnostic α} {f : α → Visit β}
    {g : α → Except Diagnostic β} {names names' : List String} (hx : Notes x y names)
    (hf : ∀ a, Notes (f a) (g a) names') : Notes (x >>= f) (y >>= g) (names ++ names') := by
  intro used
  rw [StateT.run_bind, hx used]
  cases y with
  | error e => rfl
  | ok a =>
    rw [noting_append]
    exact hf a (noting used names)

theorem Notes.map {x : Visit α} {y : Except Diagnostic α} {names : List String}
    (hx : Notes x y names) (f : α → β) : Notes (f <$> x) (y.map f) names := by
  intro used
  rw [StateT.run_map, hx used]
  cases y <;> rfl

theorem Notes.bind_pure {x : Visit α} {y : Except Diagnostic α} {names : List String}
    (hx : Notes x y names) (f : α → β) :
    Notes (x >>= fun a => Pure.pure (f a)) (y >>= fun a => .ok (f a)) names := by
  have hbind := hx.bind fun a => Notes.pure (f a)
  rwa [List.append_nil] at hbind

/-- What a walk through a list notes are the aliases of its items, in order. -/
theorem Notes.mapM {f : α → Visit β} {g : α → Except Diagnostic β} {names : α → List String}
    (h : ∀ a, Notes (f a) (g a) (names a)) (l : List α) :
    Notes (l.mapM f) (l.mapM g) (l.flatMap names) := by
  induction l with
  | nil => exact Notes.pure []
  | cons a rest ih =>
    rw [List.mapM_cons, List.mapM_cons, List.flatMap_cons]
    exact (h a).bind fun b => ih.bind_pure (b :: ·)

/-- What a walk through a tree notes are the aliases of its leaves, from left to right. -/
theorem Notes.tree {f : α → Visit β} {g : α → Except Diagnostic β} {names : α → List String}
    (h : ∀ a, Notes (f a) (g a) (names a)) (t : Tree α) :
    Notes (t.mapM f) (t.mapM g) (t.leaves.flatMap names) := by
  induction t with
  | leaf a =>
    rw [Tree.leaves, List.flatMap_singleton]
    exact (h a).bind_pure Tree.leaf
  | branch left right ihl ihr =>
    rw [Tree.leaves, List.flatMap_append]
    exact ihl.bind fun l => ihr.bind_pure (Tree.branch l)

end Visit

namespace Scope

variable (scope : Scope) (subjects : Table Subject)

/-! ## What is resolved on a walk -/

/-- An argument of a predicate with its operands resolved from left to right. -/
def element : Element → Except Diagnostic FieldValue
  | .single operand => (scope.operand subjects operand).map .single
  | .absent => .ok .absent
  | .list operands => (operands.mapM (scope.operand subjects)).map .list
  | .tree t => (t.root.mapM (scope.operand subjects)).map .tree

/-- The arguments of a predicate by name. -/
def fields (elements : List (String × Element)) : Except Diagnostic (Table FieldValue) :=
  elements.mapM fun (name, element) => do
    let value ← scope.element subjects element
    return (name, value)

/-- The gadget a predicate stands for. -/
def gadget (predicate : Predicate) : Except Diagnostic Gadget :=
  let position := predicate.span.pin scope.source
  match scope.registry.find? predicate.kind with
  | none => .error (unregistered predicate.kind position)
  | some kind => do
    let fields ← scope.fields subjects predicate.fields
    (Gadget.construct kind ⟨position, fields⟩).mapError (placed position)

/-- The aliases that the operands of predicates refer to. -/
def usedAliases (predicates : List Predicate) : List String :=
  (predicates.flatMap Predicate.operands).filterMap fun
    | .identifier name _ _ => some (scope.referencedAlias name)
    | .literal .. => none

/-- The alias that an operand refers to, if it refers to one. -/
def noted : Operand → List String
  | .identifier name _ _ => [scope.referencedAlias name]
  | .literal .. => []

theorem usedAliases_eq (predicates : List Predicate) : scope.usedAliases predicates =
    predicates.flatMap fun p => p.fields.flatMap fun e => e.2.operands.flatMap scope.noted := by
  have hnoted : ∀ operands : List Operand, (operands.filterMap fun
      | .identifier name _ _ => some (scope.referencedAlias name)
      | .literal .. => none) = operands.flatMap scope.noted := by
    intro operands
    induction operands with
    | nil => rfl
    | cons operand rest ih => cases operand <;> simp [noted, ih]
  rw [usedAliases, List.filterMap_flatMap]
  refine List.flatMap_congr fun p _ => ?_
  rw [hnoted, Predicate.operands, List.flatMap_assoc]

theorem notes_visitOperand (operand : Operand) : Visit.Notes (scope.visitOperand subjects operand)
    (scope.operand subjects operand) (scope.noted operand) := by
  intro used
  cases operand with
  | identifier name selector span =>
    unfold visitOperand
    cases scope.operand subjects (.identifier name selector span) <;> rfl
  | literal constant span =>
    unfold visitOperand
    cases scope.operand subjects (.literal constant span) <;> rfl

theorem notes_visitElement (element : Element) : Visit.Notes (scope.visitElement subjects element)
    (scope.element subjects element) (element.operands.flatMap scope.noted) := by
  cases element with
  | single operand =>
    rw [Element.operands, List.flatMap_singleton]
    exact (scope.notes_visitOperand subjects operand).map FieldValue.single
  | absent => exact .pure FieldValue.absent
  | list operands =>
    exact (Visit.Notes.mapM (scope.notes_visitOperand subjects) operands).map FieldValue.list
  | tree t =>
    exact (Visit.Notes.tree (scope.notes_visitOperand subjects) t.root).map FieldValue.tree

theorem notes_visitFields (elements : List (String × Element)) :
    Visit.Notes (scope.visitFields subjects elements) (scope.fields subjects elements)
      (elements.flatMap fun e => e.2.operands.flatMap scope.noted) := by
  refine Visit.Notes.mapM ?_ elements
  rintro ⟨name, element⟩
  exact (scope.notes_visitElement subjects element).bind_pure (Prod.mk name)

theorem notes_visitPredicate (p : Predicate) :
    Visit.Notes (scope.visitPredicate subjects p) (scope.gadget subjects p)
      (p.fields.flatMap fun e => e.2.operands.flatMap scope.noted) := by
  unfold visitPredicate gadget
  cases scope.registry.find? p.kind with
  | none => exact fun used => rfl
  | some kind =>
    have hbind := (scope.notes_visitFields subjects p.fields).bind fun fields => .lift
      ((Gadget.construct kind ⟨p.span.pin scope.source, fields⟩).mapError
        (placed (p.span.pin scope.source)))
    rwa [List.append_nil] at hbind

/-- **Going through all predicates gives their gadgets and the aliases of their operands.** -/
theorem run_visits (predicates : List Predicate) :
    (predicates.mapM (scope.visitPredicate subjects)).run [] =
      (predicates.mapM (scope.gadget subjects)).map fun gadgets =>
        (gadgets, noting [] (scope.usedAliases predicates)) := by
  rw [usedAliases_eq]
  exact Visit.Notes.mapM (scope.notes_visitPredicate subjects) predicates []

end Scope

/-! ## Taking out subjects -/

theorem Table.erase_eq_filter {α : Type} {t : Table α} (ht : t.keys.Nodup) (name : String) :
    t.erase name = t.filter fun entry => entry.1 != name := by
  induction t with
  | nil => rfl
  | cons entry rest ih =>
    obtain ⟨key, value⟩ := entry
    obtain ⟨hkey, hrest⟩ := List.nodup_cons.1 ht
    by_cases hname : key = name
    · subst hname
      have hothers : rest.filter (fun entry => entry.1 != key) = rest := by
        refine List.filter_eq_self.2 fun entry hentry => bne_iff_ne.2 fun heq => ?_
        exact hkey (List.mem_map.2 ⟨entry, hentry, heq⟩)
      simp [erase, hothers]
    · simp [erase, hname, ih hrest]

namespace Scope

variable (scope : Scope)

/-- Taking out a subject leaves the others. -/
theorem drop_eq {subjects : Table Subject} (hkeys : subjects.keys.Nodup)
    (warnings : List Diagnostic) (name : String) :
    scope.drop (subjects, warnings) name =
      (subjects.filter (fun entry => entry.1 != name), warnings ++
        ((subjects.find? name).bind (scope.unusedWarning? name)).toList) := by
  unfold drop
  cases hfind : subjects.find? name with
  | none =>
    have hothers : subjects.filter (fun entry => entry.1 != name) = subjects := by
      refine List.filter_eq_self.2 fun entry hentry => bne_iff_ne.2 ?_
      rintro rfl
      exact Table.find?_eq_none_iff.1 hfind (List.mem_map_of_mem hentry)
    simp [hothers]
  | some subject => simp [Table.erase_eq_filter hkeys]

/-- Taking out several subjects leaves those under other aliases, and the warnings come in the order
in which the subjects are taken out. -/
theorem foldl_drop_eq {subjects : Table Subject} (hkeys : subjects.keys.Nodup)
    (warnings : List Diagnostic) {names : List String} (hnames : names.Nodup) :
    names.foldl scope.drop (subjects, warnings) =
      (subjects.filter (fun entry => !names.contains entry.1), warnings ++
        names.flatMap fun name =>
          ((subjects.find? name).bind (scope.unusedWarning? name)).toList) := by
  induction names generalizing subjects warnings with
  | nil => simp
  | cons name rest ih =>
    obtain ⟨hname, hrest⟩ := List.nodup_cons.1 hnames
    have hleft : (Table.keys (subjects.filter fun entry => entry.1 != name)).Nodup :=
      hkeys.sublist (List.filter_sublist.map _)
    -- what is found under the other aliases is not touched
    have hfound : ∀ other ∈ rest,
        Table.find? other (subjects.filter fun entry => entry.1 != name) =
          subjects.find? other := by
      intro other hother
      rw [Table.find?_filter subjects (· != name), if_pos (bne_iff_ne.2 ?_)]
      rintro rfl
      exact hname hother
    have hwarnings : (rest.flatMap fun other => ((Table.find? other
        (subjects.filter fun entry => entry.1 != name)).bind (scope.unusedWarning? other)).toList) =
        rest.flatMap fun other =>
          ((subjects.find? other).bind (scope.unusedWarning? other)).toList :=
      List.flatMap_congr fun other hother => by rw [hfound other hother]
    have hkept : ∀ entry : String × Subject, (!rest.contains entry.1 && entry.1 != name) =
        !(name :: rest).contains entry.1 := by
      intro entry
      rw [List.contains_cons, Bool.not_or, Bool.and_comm]
      rfl
    rw [List.foldl_cons, drop_eq scope hkeys, ih hleft _ hrest, List.filter_filter,
      List.flatMap_cons, List.append_assoc, hwarnings]
    simp only [hkept]

/-- **The subjects whose alias was noted are left, in their order**, and there is a warning for each
of the others. -/
theorem dropUnused_eq {subjects : Table Subject} (hkeys : subjects.keys.Nodup)
    (used : List String) :
    scope.dropUnused subjects used =
      (subjects.filter (fun entry => used.contains entry.1),
        (subjects.filter fun entry => !used.contains entry.1).filterMap
          fun entry => scope.unusedWarning? entry.1 entry.2) := by
  have hkept : ∀ entry ∈ subjects,
      (!(subjects.keys.filter fun name => !used.contains name).contains entry.1) =
        used.contains entry.1 := by
    intro entry hentry
    have hkey : entry.1 ∈ subjects.keys := List.mem_map_of_mem hentry
    cases hused : used.contains entry.1 <;> simp_all
  have hwarnings : ((subjects.keys.filter fun name => !used.contains name).flatMap fun name =>
      ((subjects.find? name).bind (scope.unusedWarning? name)).toList) =
      (subjects.filter fun entry => !used.contains entry.1).filterMap
        fun entry => scope.unusedWarning? entry.1 entry.2 := by
    rw [Table.keys, List.filter_map, List.flatMap_map, List.filterMap_eq_flatMap_toList]
    refine List.flatMap_congr fun entry hentry => ?_
    rw [Table.find?_of_mem hkeys (List.mem_of_mem_filter hentry), Option.bind_some]
  rw [dropUnused, foldl_drop_eq scope hkeys _ (hkeys.filter _), List.filter_congr hkept, hwarnings]
  rfl

end Scope

end Attestation
