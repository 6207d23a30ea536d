import Attestation.Proofs.Faithfulness
import Attestation.Proofs.Positions

/-!
# Texts that positions are in

A report quotes the source that a position has the number of. For a statement this is the statement's
own text. Rules are registered one for each supplied schema, but they are looked up by the name that
a schema has for itself. So where two schemas with rules have one name, a position in the first rule
is taken for one in the second (`Request.attributed_to_other_rule`). Apart from this every position
in the outcome of a compilation has the number of the source that holds the text it comes from
(`Request.source?_of_given`).
-/

namespace Attestation

open Syntax

namespace Request

/-- Supplied schemas of one name have rules of one text. -/
def Unambiguous (request : Request) : Prop :=
  ∀ entry ∈ request.schemas, ∀ other ∈ request.schemas, entry.2.name = other.2.name →
    ∀ rule ∈ entry.2.rule, ∀ rule' ∈ other.2.rule,
      rule.source = rule'.source ∧ rule.text = rule'.text

/-- **Positions are attributed to the text they come from**, if schemas are told apart by their
names. Every position in the outcome comes from a statement of the request, resolved for the source
that has the statement's number, or from the rule of a witness subject, resolved for the source that
the rule is looked up to have; and this source, among those that the outcome comes with, has the name
and the text of what was resolved. -/
theorem source?_of_given (request : Request) (h : request.Unambiguous)
    (outcome : Except Failure Compilation) (houtcome : request.compile? = some outcome) :
    (∀ p ∈ positionsOf outcome, ∃ id text, request.Given id text p) ∧
    ∀ id text p, request.Given id text p → p.source = id ∧
      (sourcesOf outcome).source? p = some ⟨text.source, text.text⟩ := by
  refine ⟨fun p => exists_given_of_mem_positions houtcome, fun id text p hgiven => ?_⟩
  have hid := hgiven.source_eq
  refine ⟨hid, ?_⟩
  rw [sourcesOf_eq houtcome, SourceMap.source?, hid]
  rcases hgiven.getElem?_sources with
    hheld | ⟨entry, hentry, other, hother, hname, hrule, rule', hrule', hheld⟩
  · exact hheld
  · obtain ⟨hsource, htext⟩ := h entry hentry other hother hname text hrule rule' hrule'
    rw [hheld, hsource, htext]

/-! ### Two clubs

A club for the young asks for a height, which its members do not declare; a club for the old asks
for nothing. Each calls its schema as it likes. -/

/-- The rule of the club for the young. -/
def youthRule : Statement :=
  { statementAbout "private" "youth"
      [.bounds (fieldOf "private" "height") none (some (number 150)) noSpan] with
    source := "youth" }

/-- The rule of the club for the old. -/
def veteransRule : Statement :=
  { statementAbout "private" "veterans" [] with source := "veterans" }

/-- The request to show that Alice is a young one, where the schemas of both clubs have names of
their own. -/
def clubsRequest (youth veterans : String) : Request where
  name := "clubs"
  statement := statementAbout "alice" "youth"
    [.bounds (fieldOf "alice" "age") none (some (number 20)) noSpan]
  premises := []
  schemas := [("youth", ⟨youth, memberSchema.fields, some youthRule⟩),
    ("veterans", ⟨veterans, memberSchema.fields, some veteransRule⟩)]
  witness := memberData 18 "Bern"
  disclosed := []
  cap := 10

/-- What the rule of the young asks for is missing, whichever number it is looked up to have. -/
theorem given_youthRule {youth veterans : String} {source : Nat}
    (h : (clubsRequest youth veterans).registered.ruleSources.find? youth = some source) :
    (clubsRequest youth veterans).Given source youthRule (noSpan.pin source) := by
  have hstatement : ((clubsRequest youth veterans).statement ::
      (clubsRequest youth veterans).premises)[0]? = some (clubsRequest youth veterans).statement := rfl
  exact .rule hstatement rfl (List.mem_singleton_self _) rfl rfl h List.mem_cons_self

theorem source?_of_given_twoNames :
    (clubsRequest "youth" "veterans").Unambiguous ∧
    (clubsRequest "youth" "veterans").Given 1 youthRule (noSpan.pin 1) ∧
    ∃ outcome, (clubsRequest "youth" "veterans").compile? = some outcome ∧
      noSpan.pin 1 ∈ positionsOf outcome ∧
      (sourcesOf outcome).source? (noSpan.pin 1) = some ⟨youthRule.source, youthRule.text⟩ := by
  have hunambiguous : (clubsRequest "youth" "veterans").Unambiguous := by
    unfold Unambiguous
    decide +kernel
  have hgiven : (clubsRequest "youth" "veterans").Given 1 youthRule (noSpan.pin 1) :=
    given_youthRule (by decide +kernel)
  have hcompile : ∃ outcome ∈ (clubsRequest "youth" "veterans").compile?,
      noSpan.pin 1 ∈ positionsOf outcome := by decide +kernel
  obtain ⟨outcome, houtcome, hposition⟩ := hcompile
  exact ⟨hunambiguous, hgiven, outcome, houtcome, hposition,
    ((source?_of_given _ hunambiguous outcome houtcome).2 _ _ _ hgiven).2⟩

/-- **A position in a rule can be taken for one in another rule**, of a schema of the same name. -/
theorem attributed_to_other_rule :
    ∃ outcome, (clubsRequest "club" "club").compile? = some outcome ∧
      ∃ id text p, (clubsRequest "club" "club").Given id text p ∧ p ∈ positionsOf outcome ∧
        (sourcesOf outcome).source? p ≠ some ⟨text.source, text.text⟩ := by
  have hsource : (clubsRequest "club" "club").registered.ruleSources.find? "club" = some 2 := by
    decide +kernel
  have hcompile : ∃ outcome ∈ (clubsRequest "club" "club").compile?,
      noSpan.pin 2 ∈ positionsOf outcome ∧
        (sourcesOf outcome).source? (noSpan.pin 2) ≠ some ⟨youthRule.source, youthRule.text⟩ := by
    decide +kernel
  obtain ⟨outcome, houtcome, hposition, hother⟩ := hcompile
  exact ⟨outcome, houtcome, 2, youthRule, noSpan.pin 2, given_youthRule hsource, hposition, hother⟩

end Request

end Attestation
