import Attestation.Proofs.OptimizerMeaning
import Attestation.Proofs.StatementParts

/-!
# Compiled statements say what was written

The gadget of a predicate asserts what the predicate does (`Scope.Builds.holds_iff`). From there the
meaning is followed through the compiler: the gadgets of a resolved statement say what its
predicates say (`Scope.satisfies_resolve`), with the rules of its subjects they say all that it
asserts (`Scope.satisfies_resolveWithRules`), the optimizer keeps that (`Scope.satisfies_compile`),
and taking out what premises prove changes nothing where these hold.
-/

namespace Attestation

open Syntax

/-! ## Predicates -/

namespace Scope

section

variable {read : Operand → Except Diagnostic Variable} {value? : Operand → Option Value}
  {hashing : Hashing} {σ : Assignment}

theorem BuildsBound.boundIs_iff {limit : Int} {operand? : Option Operand} {v : Variable}
    (h : BuildsBound read limit operand? v)
    (hread : ∀ {o v}, read o = .ok v → value? o = some (σ.of v)) (n : Int) :
    BoundIs value? limit operand? n ↔ σ.of v = .integer n := by
  cases h with
  | given h => simp [BoundIs, hread h]
  | absent =>
    have hlimit : σ.of (.constant (.integer limit)) = .integer limit := σ.of_eq_integer rfl
    simp [BoundIs, hlimit, eq_comm]

theorem map_value?_eq (hread : ∀ {o v}, read o = .ok v → value? o = some (σ.of v))
    {operands : Tree Operand} {t : Tree Variable} (h : operands.map read = t.map .ok) :
    operands.map value? = (t.map σ.of).map some := by
  induction operands generalizing t with
  | leaf o =>
    cases t with
    | leaf v => simpa [Tree.map] using hread (Tree.leaf.inj h)
    | branch l r => cases h
  | branch left right ihl ihr =>
    cases t with
    | leaf v => cases h
    | branch l r =>
      obtain ⟨hl, hr⟩ := Tree.branch.inj h
      simp only [Tree.map, ihl hl, ihr hr]

/-- **The gadget of a predicate asserts what the predicate does.** -/
theorem Builds.holds_iff {p : Predicate} {g : Gadget} (h : Builds read p g)
    (hread : ∀ {o v}, read o = .ok v → value? o = some (σ.of v)) :
    p.Holds hashing value? ↔ g.Holds hashing σ := by
  cases h with
  | equality hl hr =>
    simp [Predicate.Holds, Gadget.Holds, Equality.Holds, hread hl, hread hr, eq_comm]
  | inequality hl hr =>
    simp [Predicate.Holds, Gadget.Holds, Inequality.Holds, hread hl, hread hr]
  | bounds hv hlo hhi =>
    simp only [Predicate.Holds, Gadget.Holds, Bounds.Holds, hread hv, Option.some.injEq,
      hlo.boundIs_iff hread, hhi.boundIs_iff hread]
  | membership hm hs =>
    simp only [Predicate.Holds, Gadget.Holds, Membership.Holds, hread hm, Option.some.injEq,
      exists_eq_left']
    constructor
    · rintro ⟨o, ho, hx⟩
      obtain ⟨v, hv, hov⟩ := exists_of_forall₂ hs ho
      exact ⟨v, hv, by simpa [hread hov] using hx.symm⟩
    · rintro ⟨v, hv, hx⟩
      obtain ⟨o, ho, hov⟩ := exists_of_forall₂ hs.flip hv
      exact ⟨o, ho, by rw [hread hov, hx]⟩
  | mimcHash hp hi =>
    simp [Predicate.Holds, Gadget.Holds, MimcHash.Holds, hread hp, hread hi]
  | merkleTree hr ht =>
    simp only [Predicate.Holds, Gadget.Holds, MerkleTree.Holds, hread hr, Option.some.injEq,
      exists_and_left, exists_eq_left', map_value?_eq hread ht]
    constructor
    · rintro ⟨t, ht', hx⟩
      rwa [Tree.map_injective (fun _ _ => Option.some.inj) ht']
    · exact fun hx => ⟨_, rfl, hx⟩

end

/-! ## Statements -/

section

variable {scope : Scope} {statement : Statement} {hashing : Hashing} {σ : Assignment}

/-- **The gadgets of a resolved statement say what its predicates say.** -/
theorem satisfies_resolve {r : Resolved} (hreg : scope.registry = .standard)
    (h : scope.resolve statement = .ok r) :
    Satisfies hashing σ r.gadgets ↔ scope.context.Says hashing σ scope.parent statement := by
  obtain ⟨subjects, hsubjects, hgadgets⟩ := builds_of_resolve hreg h
  have hread : ∀ {o v}, scope.operand subjects o = .ok v →
      scope.context.value? σ scope.parent statement.subjects o = some (σ.of v) := by
    intro o v hv
    rw [DataContext.value?, quantity?_of_operand hsubjects hv]
    rfl
  constructor
  · intro hsat p hp
    obtain ⟨g, hg, hbuilds, -⟩ := exists_of_forall₂ hgadgets hp
    exact (hbuilds.holds_iff hread).2 (hsat g hg)
  · intro hsaid g hg
    obtain ⟨p, hp, hbuilds, -⟩ := exists_of_forall₂ hgadgets.flip hg
    exact (hbuilds.holds_iff hread).1 (hsaid p hp)

/-- **The gadgets of a statement and of its rules say what it asserts.** -/
theorem satisfies_resolveWithRules {r : Resolved} (hreg : scope.registry = .standard)
    (hparent : scope.parent = none) (h : scope.resolveWithRules statement = .ok r) :
    Satisfies hashing σ r.gadgets ↔ scope.context.Asserts hashing σ statement := by
  obtain ⟨hparts, hgadgets⟩ := parts_of_resolveWithRules hparent h
  have hstandard : ∀ source about, (scope.part source about).registry = .standard := by
    simp [hreg]
  constructor
  · intro hsat part hpart
    obtain ⟨source, resolved, hresolved, hsub⟩ := hparts part hpart
    exact (satisfies_resolve (hstandard source part.1) hresolved).1 fun g hg => hsat g (hsub hg)
  · intro hsaid g hg
    obtain ⟨part, hpart, source, resolved, hresolved, hg⟩ := hgadgets g hg
    exact (satisfies_resolve (hstandard source part.1) hresolved).2 (hsaid part hpart) g hg

/-- **The compiled gadgets of a statement say what it asserts.** -/
theorem satisfies_compile {rules : RuleSet} {cap : Nat} {r : Resolved}
    (hreg : scope.registry = .standard) (hparent : scope.parent = none)
    (h : scope.compile rules cap statement = .ok r) :
    Satisfies hashing σ r.gadgets ↔ scope.context.Asserts hashing σ statement := by
  obtain ⟨resolved, hresolved, h⟩ := bind_eq_ok_iff.1 h
  obtain ⟨gadgets, hgadgets, h⟩ := bind_eq_ok_iff.1 h
  cases h
  rw [← satisfies_resolveWithRules hreg hparent hresolved]
  exact Optimizer.satisfies_optimize hgadgets (check_of_resolveWithRules hreg hparent hresolved)

theorem check_of_compile {rules : RuleSet} {cap : Nat} {r : Resolved}
    (hreg : scope.registry = .standard) (hparent : scope.parent = none)
    (h : scope.compile rules cap statement = .ok r) : ∀ g ∈ r.gadgets, g.check = .ok () := by
  obtain ⟨resolved, hresolved, h⟩ := bind_eq_ok_iff.1 h
  obtain ⟨gadgets, hgadgets, h⟩ := bind_eq_ok_iff.1 h
  cases h
  exact KeptByRules.check.optimize hgadgets (check_of_resolveWithRules hreg hparent hresolved)

end

end Scope

/-! ## Requests -/

namespace Request

variable {hashing : Hashing} {σ : Assignment}

/-- Taking out gadgets that hold anyway does not change whether the others do. -/
theorem satisfies_filter {gadgets : List Gadget} {proven : Gadget → Bool}
    (h : ∀ g, proven g = true → g.Holds hashing σ) :
    Satisfies hashing σ (gadgets.filter fun g => !proven g) ↔ Satisfies hashing σ gadgets := by
  constructor
  · intro hsat g hg
    cases hp : proven g with
    | true => exact h g hp
    | false => exact hsat g (List.mem_filter.2 ⟨hg, by simp [hp]⟩)
  · exact fun hsat g hg => hsat g (List.mem_of_mem_filter hg)

/-- **Compilation is faithful.** Where all premises hold, the gadgets of a compiled statement hold
exactly when what it asserts does. -/
theorem asserts_iff_satisfies_of_compile (request : Request) (c : Compilation)
    (h : request.compile? = some (.ok c)) (hashing : Hashing) (σ : Assignment)
    (hpremises : ∀ premise ∈ request.premises, request.context.Asserts hashing σ premise) :
    request.context.Asserts hashing σ request.statement ↔
      Satisfies hashing σ c.statement.gadgets := by
  obtain ⟨ruleSources, main, hmain, hcompiled, hgadgets⟩ := compile?_eq_ok h
  have hproven : ∀ g, (c.premises.any fun p => p.proves g) = true → g.Holds hashing σ := by
    intro g hg
    obtain ⟨p, hp, hproves⟩ := List.any_eq_true.1 hg
    obtain ⟨k, hk, hsame⟩ := GadgetSet.has_iff.1 hproves
    obtain ⟨premise, hpremise, number, r, hr, hrgadgets⟩ := exists_of_forall₂ hcompiled.flip hp
    rw [hrgadgets] at hk
    have hcheck := Scope.check_of_compile rfl rfl hr k hk
    have hsat := (Scope.satisfies_compile rfl rfl hr).2 (hpremises premise hpremise)
    exact (Gadget.holds_iff_of_same hsame hcheck).1 (hsat k hk)
  rw [hgadgets, satisfies_filter hproven, Scope.satisfies_compile rfl rfl hmain]
  exact Iff.rfl

/-! ### A member of age

A member is at least 18, by the rule of the schema. What is to be shown is an age from 21 to 150 and
a city out of a list of one; a premise shows the city. -/

/-- Where nothing is written. -/
def noSpan : Span := ⟨0, 0, 0⟩

/-- The statement about one witness subject of a schema. -/
def statementAbout (subject schema : String) (predicates : List Predicate) : Statement :=
  ⟨subject, "", [⟨⟨subject, noSpan⟩, ⟨schema, noSpan⟩, .witness⟩], predicates⟩

/-- A field of a subject. -/
def fieldOf (subject field : String) : Operand :=
  .identifier subject ⟨[field]⟩ noSpan

/-- A number as it is written. -/
def number (n : Int) : Operand :=
  .literal (.integer n) noSpan

/-- A text as it is written. -/
def string (text : String) : Operand :=
  .literal (.string text) noSpan

def memberSchema : Schema where
  name := "member"
  fields := [("age", .scalar .integer), ("city", .scalar .text)]
  rule := some (statementAbout "private" "member"
    [.bounds (fieldOf "private" "age") (some (number 18)) none noSpan])

def memberData (age : Int) (city : String) : Table Accessor :=
  [("alice", .document (.object [("age", .number (.integer age)), ("city", .string city)]))]

/-- The request to show predicates about Alice, with premises. -/
def memberRequest (witness : Table Accessor) (predicates : List Predicate)
    (premises : List (List Predicate)) : Request where
  name := "member"
  statement := statementAbout "alice" "member" predicates
  premises := premises.map (statementAbout "alice" "member")
  schemas := [("member", memberSchema)]
  witness
  disclosed := []
  cap := 10

/-- Everything that is known has its own value. -/
def honest : Assignment where
  value i := i.literal.value?.getD (.integer 0)
  value_known h := by simp [h]

/-- The city is shown. -/
def cityShown : List Predicate :=
  [.equality (fieldOf "alice" "city") (string "Bern") noSpan]

/-- The age and the city are to be shown. -/
def ageAndCity : List Predicate :=
  [.bounds (fieldOf "alice" "age") (some (number 21)) (some (number 150)) noSpan,
    .membership (fieldOf "alice" "city") [string "Bern"] noSpan]

/-- The gadgets of the compiled statement, if there is one. -/
def gadgets? (request : Request) : Option (List Gadget) :=
  request.compilation?.map (·.statement.gadgets)

theorem exists_compile_of_gadgets? {request : Request} {gadgets : List Gadget}
    (h : request.gadgets? = some gadgets) :
    ∃ c, request.compile? = some (.ok c) ∧ c.statement.gadgets = gadgets := by
  obtain ⟨c, hc, hgadgets⟩ := Option.map_eq_some_iff.1 h
  exact ⟨c, compilation?_eq_some_iff.1 hc, hgadgets⟩

/-- A value of Alice as it is read in a numbered source. -/
def aliceValue (field : String) (literal : Literal) (source : Nat) : Variable :=
  ⟨.witness, literal, some (noSpan.pin source), some ⟨literal.type, "alice", ⟨[field]⟩⟩⟩

/-- A constant as it is written in a numbered source. -/
def written (literal : Literal) (source : Nat) : Variable :=
  ⟨.disclosed, literal, some (noSpan.pin source), none⟩

/-- Hashing that changes nothing and knows no trees. -/
def noHashing : Hashing := ⟨id, fun _ _ => False⟩

/-- The request of a member of thirty, the city being shown already. -/
def adultRequest : Request :=
  memberRequest (memberData 30 "Bern") ageAndCity [cityShown]

theorem asserts_iff_satisfies_of_compile_adult :
    (∀ premise ∈ adultRequest.premises, adultRequest.context.Asserts noHashing honest premise) ∧
    ∃ c, adultRequest.compile? = some (.ok c) ∧ Satisfies noHashing honest c.statement.gadgets ∧
      adultRequest.context.Asserts noHashing honest adultRequest.statement := by
  have hcity : (memberRequest (memberData 30 "Bern") cityShown []).gadgets? = some
      [.equality ⟨aliceValue "city" (.text "Bern") 0, written (.text "Bern") 0⟩,
        .bounds ⟨aliceValue "age" (.integer 30) 1, written (.integer 18) 1,
          .constant (.integer Bounds.greatest)⟩] := by decide +kernel
  have hpremises : ∀ premise ∈ adultRequest.premises,
      adultRequest.context.Asserts noHashing honest premise := by
    intro premise hpremise
    obtain ⟨c, hc, hgadgets⟩ := exists_compile_of_gadgets? hcity
    cases List.mem_singleton.1 hpremise
    refine (asserts_iff_satisfies_of_compile _ c hc noHashing honest (by simp [memberRequest])).2 ?_
    rw [hgadgets]
    refine List.forall_mem_cons.2 ⟨rfl, List.forall_mem_singleton.2 ?_⟩
    exact ⟨30, 18, Bounds.greatest, rfl, rfl, rfl, by decide, by decide⟩
  have hmain : adultRequest.gadgets? = some [.bounds ⟨aliceValue "age" (.integer 30) 0,
      written (.integer 21) 0, written (.integer 150) 0⟩] := by decide +kernel
  obtain ⟨c, hc, hgadgets⟩ := exists_compile_of_gadgets? hmain
  have hsat : Satisfies noHashing honest c.statement.gadgets := by
    rw [hgadgets]
    exact List.forall_mem_singleton.2 ⟨30, 21, 150, rfl, rfl, rfl, by decide, by decide⟩
  exact ⟨hpremises, c, hc, hsat,
    (asserts_iff_satisfies_of_compile adultRequest c hc noHashing honest hpremises).2 hsat⟩

end Request

end Attestation
