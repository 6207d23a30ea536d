import Attestation.Proofs.Faithfulness
import Attestation.Proofs.Positions

/-!
# Subjects that variables name

A variable that was read refers to the subject it was read from. A statement keeps the subjects that
its operands name, so all that it reads itself is read from a subject that it keeps. A rule is
resolved apart: the subject it is about is one that the statement keeps, but it may declare others,
and it may declare the one it is about as disclosed. Its gadgets become gadgets of the statement, its
subjects do not become subjects of the statement (`Request.exists_unnamed`).

So every variable of a compiled statement that refers to a subject refers to one that the statement
keeps and that is declared alike, or an operand of a rule names it, where it stands in the source of
this rule, and it is read from a subject of the rule's own (`Request.named_of_compile`).
-/

namespace Attestation

open Syntax

/-- An operand of the statement at this place names the field that is referred to. In the rule about
a subject, the reserved aliases stand for this subject. -/
def Syntax.Statement.NamesAt (statement : Statement) (about : Option String) (ref : Reference)
    (span : Span) : Prop :=
  ∃ predicate ∈ statement.predicates, ∃ name,
    .identifier name ref.selector span ∈ predicate.operands ∧ standsFor about name = ref.subject

namespace Scope

variable {scope : Scope} {statement : Statement} {r : Resolved}

/-! ## Subjects that are kept -/

/-- A subject that is kept is found under its alias. -/
theorem find?_of_mem_subjects (h : scope.resolve statement = .ok r) {entry : String × Subject}
    (hentry : entry ∈ r.subjects) : r.subjects.find? entry.1 = some entry.2 :=
  Table.find?_of_mem (nodup_keys_of_resolve h) hentry

variable (scope) in
/-- **What a statement reads is what one of its operands names, and it is read from a subject that
the statement declares and keeps.** -/
theorem subject_of_reference (hreg : scope.registry = .standard)
    (h : scope.resolve statement = .ok r) {g : Gadget} (hg : g ∈ r.gadgets) {v : Variable}
    (hv : v ∈ g.vars) {ref : Reference} (href : v.reference = some ref) :
    (∃ span : Span, v.position = some (span.pin scope.source) ∧
      statement.NamesAt scope.parent ref span) ∧
    (∃ subject, r.subjects.find? ref.subject = some subject ∧
      subject.visibility = v.visibility) ∧
    ∃ d ∈ statement.subjects, standsFor scope.parent d.subject.name = ref.subject ∧
      d.visibility = v.visibility := by
  obtain ⟨subjects, hsubjects, hgadgets, hkept⟩ := resolve_eq_ok h
  obtain ⟨p, hp, hpg⟩ := exists_of_forall₂ hgadgets.flip hg
  rcases (gadget_eq_ok hreg hpg).1.read_or_constant v hv with ⟨o, ho, hread⟩ | ⟨limit, rfl⟩
  case inr => cases href
  cases o with
  | literal constant span =>
    unfold operand at hread
    dsimp only at hread
    split at hread
    · cases hread
    · cases hread
      cases href
  | identifier name selector span =>
    unfold operand at hread
    dsimp only at hread
    split at hread
    case h_1 => cases hread
    case h_2 subject hfind =>
      obtain ⟨d, hd, hdec⟩ := find?_of_declares (declareAll_eq_ok hsubjects) hfind
      obtain ⟨schema, -, hbinds⟩ := hdec.binds
      obtain ⟨type, literal, -, rfl⟩ := Subject.resolve_eq_ok hread
      cases href
      have hname : subject.name = scope.referencedAlias name := hbinds.name_eq
      have hoperand : .identifier name selector span ∈ p.operands := operands_eq_arguments p ▸ ho
      have hused : scope.referencedAlias name ∈ scope.usedAliases statement.predicates :=
        List.mem_filterMap.2 ⟨_, List.mem_flatMap.2 ⟨p, hp, hoperand⟩, rfl⟩
      refine ⟨⟨span, rfl, p, hp, name, hoperand, ?_⟩, ⟨subject, ?_, rfl⟩, d,
        List.mem_of_find?_eq_some hd, ?_, ?_⟩
      · rw [← referencedAlias_eq]
        exact hname.symm
      · rw [hkept, Table.find?_filter _ (scope.usedAliases statement.predicates).contains, hname,
          if_pos (List.contains_iff_mem.2 hused), hfind]
      · have hdeclared := declaredAlias_eq_ok hdec.declaredAlias
        exact hdeclared.trans hname.symm
      · exact hbinds.visibility_eq.symm

end Scope

/-! ## Compiled statements -/

/-- A variable is read from a subject of the compiled statement that is declared alike. -/
def Compiled.Names (c : Compiled) (v : Variable) : Prop :=
  ∃ ref subject, v.reference = some ref ∧ c.subjects.find? ref.subject = some subject ∧
    subject.visibility = v.visibility

/-- A subject that a rule has for itself: it goes by another alias than the subject the rule is
about, or it is disclosed, where that one is a witness. -/
def Syntax.Declaration.IsOwn (d : Declaration) : Prop :=
  d.subject.name ∉ reservedAliases ∨ d.visibility = .disclosed

/-- A variable is read at a position in a rule, the rule of a witness subject of the compiled
statement. The source of the position is the one this rule is registered under, an operand of the
rule at this place names the variable, and the rule has the subject it is read from for itself. -/
def Compiled.NamesInRule (c : Compiled) (context : DataContext) (v : Variable) (p : Position) :
    Prop :=
  ∃ ref name subject rule, v.reference = some ref ∧ c.subjects.find? name = some subject ∧
    subject.visibility = .witness ∧ subject.schema.rule = some rule ∧
    context.ruleSource? subject.schema = some p.source ∧ rule.NamesAt (some name) ref p.span ∧
    ∃ d ∈ rule.subjects, d.IsOwn ∧ standsFor (some name) d.subject.name = ref.subject ∧
      d.visibility = v.visibility

/-- A variable is accounted for: it refers to nothing, or it was read and the subject is known. -/
def Compiled.Accounts (c : Compiled) (context : DataContext) (v : Variable) : Prop :=
  v.reference.isSome = true → ∃ p, v.position = some p ∧ (c.Names v ∨ c.NamesInRule context v p)

namespace Scope

variable {scope : Scope} {statement : Statement} {r : Resolved} {c : Compiled}

/-- What is read in the rule of a subject is read from this subject or from one of the rule's own. -/
theorem accounts_of_rule (hreg : scope.registry = .standard) {subject : Subject}
    (hsubject : c.subjects.find? subject.name = some subject) {rule : Statement} {source : Nat}
    (hvisibility : subject.visibility = .witness) (hrule : subject.schema.rule = some rule)
    (hsource : scope.context.ruleSource? subject.schema = some source)
    (h : (scope.nested source subject.name).resolve rule = .ok r)
    {g : Gadget} (hg : g ∈ r.gadgets) {v : Variable} (hv : v ∈ g.vars) :
    c.Accounts scope.context v := by
  intro hsome
  obtain ⟨ref, href⟩ := Option.isSome_iff_exists.1 hsome
  obtain ⟨⟨span, hposition, hnames⟩, -, d, hd, hname, hdeclared⟩ :=
    (scope.nested source subject.name).subject_of_reference hreg h hg hv href
  refine ⟨_, hposition, ?_⟩
  by_cases hown : d.IsOwn
  · exact .inr ⟨ref, subject.name, subject, rule, href, hsubject, hvisibility, hrule, hsource,
      hnames, d, hd, hown, hname, hdeclared⟩
  · -- what is left is the subject that the rule is about, which is a witness
    obtain ⟨hreserved, hwitness⟩ := not_or.1 hown
    have hparent : standsFor (some subject.name) d.subject.name = subject.name :=
      if_pos (not_not.1 hreserved)
    have hlike : subject.visibility = d.visibility := by
      cases hd : d.visibility with
      | witness => exact hvisibility
      | disclosed => exact absurd hd hwitness
    refine .inl ⟨ref, subject, href, ?_, hlike.trans hdeclared⟩
    rw [← hname, show standsFor (scope.nested source subject.name).parent d.subject.name = _ from
      hparent, hsubject]

/-- **All that a statement and its rules read is accounted for.** -/
theorem accounts_of_resolveWithRules (hreg : scope.registry = .standard)
    (h : scope.resolveWithRules statement = .ok r) (hc : c.subjects = r.subjects) :
    ∀ g ∈ r.gadgets, ∀ v ∈ g.vars, c.Accounts scope.context v := by
  obtain ⟨main, rules, hmain, hrules, hr, hsubjects⟩ := resolveWithRules_eq_ok h
  rw [hsubjects] at hc
  intro g hg v hv
  rw [hr, List.mem_append] at hg
  rcases hg with hg | hg
  · intro hsome
    obtain ⟨ref, href⟩ := Option.isSome_iff_exists.1 hsome
    obtain ⟨⟨span, hposition, -⟩, ⟨subject, hfind, hvisibility⟩, -⟩ :=
      scope.subject_of_reference hreg hmain hg hv href
    exact ⟨_, hposition, .inl ⟨ref, subject, href, hc ▸ hfind, hvisibility⟩⟩
  · obtain ⟨result, hresult, hg⟩ := List.mem_flatMap.1 hg
    obtain ⟨entry, hentry, hruleOf⟩ := exists_of_forall₂ hrules.flip hresult
    rcases ruleOf_eq_ok hruleOf with
      ⟨rule, source, resolved, hvisibility, hrule, hnumber, hresolved, hgadgets⟩ | ⟨-, hnone⟩
    · have hsubject : c.subjects.find? entry.2.name = some entry.2 := by
        rw [hc, name_of_mem_subjects hmain hentry, find?_of_mem_subjects hmain hentry]
      exact accounts_of_rule hreg hsubject hvisibility hrule hnumber hresolved (hgadgets ▸ hg) hv
    · rw [hnone] at hg
      cases hg

end Scope

namespace Request

/-- **A compiled statement is closed but for what rules declare.** Every variable of its gadgets that
refers to a subject refers to a subject of the compiled statement that is declared alike; or else it
was read in a rule of a witness subject of the statement, from a subject that the rule has for
itself. In this case it has the position of the operand that names it, in the source that the rule is
registered under, which is none of the sources of statements. -/
theorem named_of_compile (request : Request) (c : Compilation)
    (h : request.compile? = some (.ok c)) :
    ∃ context, request.register? = some (context, c.sources) ∧
      ∀ g ∈ c.statement.gadgets, ∀ v ∈ g.vars, v.reference.isSome = true →
        ∃ p, v.position = some p ∧ (c.statement.Names v ∨
          request.premises.length < p.source ∧ c.statement.NamesInRule context v p) := by
  obtain ⟨hfits, h⟩ := compile?_eq_some_iff.1 h
  obtain ⟨main, hmain, -, hstatement, hsources⟩ := compileIn_eq_ok h
  obtain ⟨resolved, hresolved, hmain⟩ := bind_eq_ok_iff.1 hmain
  obtain ⟨gadgets, hgadgets, hmain⟩ := bind_eq_ok_iff.1 hmain
  cases hmain
  have hread := Scope.accounts_of_resolveWithRules rfl hresolved
    (congrArg Compiled.subjects hstatement)
  have hkept := (KeptByRules.vars (c.statement.Accounts request.registered)).optimize hgadgets hread
  refine ⟨request.registered, by rw [register?_eq, if_pos hfits, hsources], ?_⟩
  intro g hg v hv hsome
  rw [hstatement] at hg
  obtain ⟨p, hposition, hnames | hrule⟩ := hkept g (List.mem_of_mem_filter hg) v hv hsome
  · exact ⟨p, hposition, .inl hnames⟩
  · obtain ⟨-, -, subject, -, -, -, -, -, hnumber, -⟩ := id hrule
    exact ⟨p, hposition, .inr ⟨(request.source_of_ruleSource? hnumber).1, hrule⟩⟩

/-! ### A guest

A house has a rule for its guests, which may name the house itself or be about what is disclosed of
the guest. -/

/-- The request to show that Alice, who is a guest from Bern, is young. -/
def guestRequest (rule : Statement) (disclosed : Table Accessor) : Request where
  name := "guest"
  statement := statementAbout "alice" "guest"
    [.bounds (fieldOf "alice" "age") none (some (number 20)) noSpan]
  premises := []
  schemas := [("guest", { memberSchema with rule := some rule })]
  witness := memberData 18 "Bern"
  disclosed
  cap := 10

/-- The request where guests have to be from another city than the house. -/
def strangerRequest : Request :=
  guestRequest
    ⟨"guest", "",
      [⟨⟨"private", noSpan⟩, ⟨"guest", noSpan⟩, .witness⟩,
        ⟨⟨"house", noSpan⟩, ⟨"guest", noSpan⟩, .disclosed⟩],
      [.inequality (fieldOf "private" "city") (fieldOf "house" "city") noSpan]⟩
    [("house", .document (.object [("city", .string "Basel")]))]

/-- The request where it has to be disclosed that guests are from Bern or Basel. -/
def localRequest : Request :=
  guestRequest
    ⟨"guest", "", [⟨⟨"public", noSpan⟩, ⟨"guest", noSpan⟩, .disclosed⟩],
      [.membership (fieldOf "public" "city") [string "Bern", string "Basel"] noSpan]⟩
    [("alice", .document (.object [("city", .string "Bern")]))]

theorem named_of_compile_stranger :
    ∃ c context, strangerRequest.compile? = some (.ok c) ∧
      strangerRequest.register? = some (context, c.sources) ∧
      ∃ g ∈ c.statement.gadgets, ∃ v ∈ g.vars,
        v.reference = some ⟨.text, "house", ⟨["city"]⟩⟩ ∧ ∃ p, v.position = some p ∧
          0 < p.source ∧ c.statement.NamesInRule context v p := by
  have hread : ∃ c ∈ strangerRequest.compilation?, c.statement.subjects.find? "house" = none ∧
      ∃ g ∈ c.statement.gadgets, ∃ v ∈ g.vars,
        v.reference = some ⟨.text, "house", ⟨["city"]⟩⟩ := by decide +kernel
  obtain ⟨c, hc, hnone, g, hg, v, hv, href⟩ := hread
  have hcompile := compilation?_eq_some_iff.1 hc
  obtain ⟨context, hregister, hnamed⟩ := named_of_compile strangerRequest c hcompile
  refine ⟨c, context, hcompile, hregister, g, hg, v, hv, href, ?_⟩
  obtain ⟨p, hposition, ⟨ref, subject, href', hfind, -⟩ | hrule⟩ :=
    hnamed g hg v hv (by rw [href]; rfl)
  · -- the statement keeps no subject that is called house
    rw [href] at href'
    cases href'
    rw [hnone] at hfind
    cases hfind
  · exact ⟨p, hposition, hrule⟩

/-- **Rules bring in variables that the statement has no subject for.** One refers to a subject that
is not there, another to a subject that is a witness although what was read is disclosed. -/
theorem exists_unnamed :
    (∃ c, strangerRequest.compile? = some (.ok c) ∧ ∃ g ∈ c.statement.gadgets, ∃ v ∈ g.vars,
      ∃ ref ∈ v.reference, (c.statement.subjects.find? ref.subject).isNone = true) ∧
    ∃ c, localRequest.compile? = some (.ok c) ∧ ∃ g ∈ c.statement.gadgets, ∃ v ∈ g.vars,
      ∃ ref ∈ v.reference, ∃ subject ∈ c.statement.subjects.find? ref.subject,
        subject.visibility ≠ v.visibility := by
  have hstranger : ∃ c ∈ strangerRequest.compilation?, ∃ g ∈ c.statement.gadgets, ∃ v ∈ g.vars,
      ∃ ref ∈ v.reference, (c.statement.subjects.find? ref.subject).isNone = true := by
    decide +kernel
  have hlocal : ∃ c ∈ localRequest.compilation?, ∃ g ∈ c.statement.gadgets, ∃ v ∈ g.vars,
      ∃ ref ∈ v.reference, ∃ subject ∈ c.statement.subjects.find? ref.subject,
        subject.visibility ≠ v.visibility := by
    decide +kernel
  obtain ⟨c, hc, hstranger⟩ := hstranger
  obtain ⟨c', hc', hlocal⟩ := hlocal
  exact ⟨⟨c, compilation?_eq_some_iff.1 hc, hstranger⟩, c', compilation?_eq_some_iff.1 hc', hlocal⟩

end Request

end Attestation
