import Attestation.Proofs.Exhaustion

/-!
# Contradictions between equalities and inequalities

Gadgets that all rules have been applied to, and that are equalities and inequalities only, have a
model. Quantities that are said to be equal form classes. A class that contains a known quantity
gets its value, which is unique, and any other class a value of its own, larger than all that are
known (`classValue`). Different classes then have different values
(`Settled.alike_of_classValue_eq`), which makes all inequalities hold.

So the optimizer finds every contradiction between equalities and inequalities
(`Optimizer.optimize_equalities`), provided that there are values enough, as there are of all types
but the boolean one, and that only witnesses are unknown.
-/

namespace Attestation

/-! ## Values of any size -/

namespace Value

def type : Value → DataType
  | integer _ => .integer
  | text _ => .text
  | bytes _ => .bytes
  | boolean _ => .boolean

/-- The absolute value of a number, the length of a text or of bytes. -/
def size : Value → Nat
  | integer value => value.natAbs
  | text value => value.length
  | bytes data => data.length
  | boolean _ => 0

/-- A value of a given type and size. -/
def ofSize : DataType → Nat → Value
  | .integer, n => .integer n
  | .text, n => .text (String.ofList (List.replicate n '0'))
  | .bytes, n => .bytes (List.replicate n 0)
  | .boolean, _ => .boolean false

@[simp] theorem type_ofSize (type : DataType) (n : Nat) : (ofSize type n).type = type := by
  cases type <;> rfl

theorem size_ofSize {type : DataType} (h : type ≠ .boolean) (n : Nat) :
    (ofSize type n).size = n := by
  cases type with
  | integer => simp [ofSize, size]
  | text => simp [ofSize, size]
  | bytes => simp [ofSize, size]
  | boolean => exact absurd rfl h

theorem type_literal (x : Value) : x.literal.type = x.type := by
  cases x <;> rfl

end Value

/-- An assignment that gives all quantities values of their types. -/
def Assignment.Typed (σ : Assignment) : Prop :=
  ∀ v : Identity, (σ.value v).type = v.literal.type

theorem Identity.type_of_value? {v : Identity} {x : Value} (h : v.value? = some x) :
    x.type = v.literal.type := by
  rw [Identity.value?_eq_some_iff.1 h, Value.type_literal]

theorem Identity.known_of_value? {v : Identity} {x : Value} (h : v.value? = some x) : v.Known := by
  rw [Identity.value?_eq_some_iff.1 h]
  exact ⟨rfl, by cases x <;> rfl⟩

/-- What is chosen for unknown quantities alone decides about types. -/
theorem Assignment.typed_choosing {f : Identity → Value}
    (hf : ∀ v, (f v).type = v.literal.type) : (choosing f).Typed := by
  intro v
  cases hx : v.value? with
  | none => simpa [choosing, hx] using hf v
  | some x => simpa [choosing, hx] using Identity.type_of_value? hx

/-! ## Classes of quantities -/

/-- The quantities that gadgets are about. -/
def quantities (gadgets : List Gadget) : List Identity :=
  (gadgets.flatMap Gadget.vars).map Variable.identity

instance (gadgets : List Gadget) (u v : Identity) : Decidable (Alike gadgets u v) :=
  inferInstanceAs (Decidable (v = u ∨ Links gadgets u v))

/-- The value of a known quantity that a quantity is said to equal. -/
def constant? (gadgets : List Gadget) (v : Identity) : Option Value :=
  (quantities gadgets).findSome? fun d => if Alike gadgets v d then d.value? else none

/-- A number for a quantity, the same for all that are said to be equal. -/
def classIndex (gadgets : List Gadget) (v : Identity) : Nat :=
  (quantities gadgets).findIdx fun w => Alike gadgets v w

/-- More than the size of every known value. -/
def sizeBound : List Identity → Nat
  | [] => 1
  | v :: rest => v.value?.elim 0 Value.size + sizeBound rest

/-- The value of a known quantity that a quantity is said to equal, or else a value for it and for
those that it is said to equal. -/
def classValue (gadgets : List Gadget) (v : Identity) : Value :=
  (constant? gadgets v).getD
    (.ofSize v.literal.type (sizeBound (quantities gadgets) + classIndex gadgets v))

variable {out : List Gadget} {u v w d : Identity} {x : Value}

theorem mem_quantities {g : Gadget} {a : Variable} (hg : g ∈ out) (ha : a ∈ g.vars) :
    a.identity ∈ quantities out :=
  List.mem_map_of_mem (List.mem_flatMap.2 ⟨g, hg, ha⟩)

theorem sizeBound_pos (vs : List Identity) : 0 < sizeBound vs := by
  induction vs with
  | nil => exact Nat.one_pos
  | cons w rest ih => exact Nat.add_pos_right _ ih

theorem size_lt_sizeBound {vs : List Identity} (hv : v ∈ vs) (hx : v.value? = some x) :
    x.size < sizeBound vs := by
  induction vs with
  | nil => cases hv
  | cons w rest ih =>
    rw [sizeBound]
    rcases List.mem_cons.1 hv with rfl | hv
    · have hpos := sizeBound_pos rest
      simp only [hx, Option.elim_some]
      omega
    · have hlt := ih hv
      omega

theorem constant?_eq_some (h : constant? out v = some x) :
    ∃ d ∈ quantities out, Alike out v d ∧ d.value? = some x := by
  obtain ⟨d, hd, hx⟩ := List.exists_of_findSome?_eq_some h
  split_ifs at hx with halike
  exact ⟨d, hd, halike, hx⟩

namespace Settled

theorem alike_congr (h : Settled out) (hvw : Alike out v w) : Alike out v u ↔ Alike out w u :=
  ⟨h.alike_trans hvw.symm, h.alike_trans hvw⟩

/-- Quantities that are said to be equal are of one type. -/
theorem type_eq_of_alike (h : Settled out) (hvw : Alike out v w) :
    v.literal.type = w.literal.type := by
  rcases hvw with rfl | ⟨e, a, b, he, hab, rfl, rfl⟩
  · rfl
  · exact hab.type_eq (h.check _ he)

/-- A quantity is said to equal one known quantity at most. -/
theorem constant?_eq (h : Settled out) (hd : d ∈ quantities out) (hvd : Alike out v d)
    (hx : d.value? = some x) : constant? out v = some x := by
  cases hc : constant? out v with
  | none =>
    have hnone := List.findSome?_eq_none_iff.1 hc d hd
    rw [if_pos hvd, hx] at hnone
    cases hnone
  | some y =>
    obtain ⟨d', -, hvd', hy⟩ := constant?_eq_some hc
    have hdd : d = d' := by
      by_contra hne
      exact hne (h.eq_of_links (h.links_of_alike hvd hvd' hne) (Identity.known_of_value? hx)
        (Identity.known_of_value? hy))
    rw [← hx, ← hy, hdd]

theorem classValue_eq_of_alike (h : Settled out) (hvw : Alike out v w) :
    classValue out v = classValue out w := by
  have hcongr : ∀ u, Alike out v u ↔ Alike out w u := fun u => h.alike_congr hvw
  have hconstant : constant? out v = constant? out w := by simp only [constant?, hcongr]
  have hindex : classIndex out v = classIndex out w := by simp only [classIndex, hcongr]
  rw [classValue, classValue, hconstant, hindex, h.type_eq_of_alike hvw]

theorem classValue_type (h : Settled out) (v : Identity) :
    (classValue out v).type = v.literal.type := by
  unfold classValue
  cases hc : constant? out v with
  | none => simp
  | some x =>
    obtain ⟨d, -, hvd, hx⟩ := constant?_eq_some hc
    exact (Identity.type_of_value? hx).trans (h.type_eq_of_alike hvd).symm

/-- The chosen values agree with those that are known. -/
theorem choosing_classValue (h : Settled out) (hv : v ∈ quantities out) :
    (Assignment.choosing (classValue out)).value v = classValue out v := by
  cases hx : v.value? with
  | none => simp [Assignment.choosing, hx]
  | some x => simp [Assignment.choosing, hx, classValue, h.constant?_eq hv (.inl rfl) hx]

theorem alike_of_classIndex_eq (h : Settled out) (hv : v ∈ quantities out)
    (hw : w ∈ quantities out) (heq : classIndex out v = classIndex out w) : Alike out v w := by
  have hlt : ∀ {u : Identity}, u ∈ quantities out → classIndex out u < (quantities out).length :=
    fun {u} hu => List.findIdx_lt_length.2 ⟨u, hu, decide_eq_true (.inl rfl)⟩
  have hfirst : ∀ {u : Identity} (hu : u ∈ quantities out),
      Alike out u ((quantities out).get ⟨classIndex out u, hlt hu⟩) :=
    fun {u} hu => of_decide_eq_true (List.findIdx_getElem (p := fun w => decide (Alike out u w)))
  have hvw := hfirst hv
  simp only [heq] at hvw
  exact h.alike_trans hvw (hfirst hw).symm

/-- **Different classes have different values**, if these are not booleans. -/
theorem alike_of_classValue_eq (h : Settled out) (hv : v ∈ quantities out)
    (hw : w ∈ quantities out) (hvt : v.literal.type ≠ .boolean) (hwt : w.literal.type ≠ .boolean)
    (heq : classValue out v = classValue out w) : Alike out v w := by
  -- a value that is not known exceeds all that are
  have hlarge : ∀ {u : Identity}, u.literal.type ≠ .boolean → constant? out u = none →
      (classValue out u).size = sizeBound (quantities out) + classIndex out u := by
    intro u hu hnone
    rw [classValue, hnone]
    exact Value.size_ofSize hu _
  have hsmall : ∀ {u : Identity} {x : Value}, constant? out u = some x →
      (classValue out u).size < sizeBound (quantities out) := by
    intro u x hx
    obtain ⟨d, hd, -, hdx⟩ := constant?_eq_some hx
    rw [classValue, hx]
    exact size_lt_sizeBound hd hdx
  have hsize := congrArg Value.size heq
  cases hcv : constant? out v with
  | none =>
    rw [hlarge hvt hcv] at hsize
    cases hcw : constant? out w with
    | none =>
      rw [hlarge hwt hcw] at hsize
      exact h.alike_of_classIndex_eq hv hw (by omega)
    | some y =>
      have := hsmall hcw
      omega
  | some x =>
    cases hcw : constant? out w with
    | none =>
      have := hsmall hcv
      rw [hlarge hwt hcw] at hsize
      omega
    | some y =>
      obtain ⟨d, -, hvd, hx⟩ := constant?_eq_some hcv
      obtain ⟨d', -, hwd, hy⟩ := constant?_eq_some hcw
      have hxy : x = y := by simpa [classValue, hcv, hcw] using heq
      have hdd : d = d' := by
        rw [Identity.value?_eq_some_iff.1 hx, Identity.value?_eq_some_iff.1 hy, hxy]
      subst hdd
      exact h.alike_trans hvd hwd.symm

end Settled

/-! ## Equalities and inequalities -/

namespace Gadget

/-- A gadget that says that two quantities are equal or that they differ. -/
def Compares : Gadget → Bool
  | equality _ => true
  | inequality _ => true
  | _ => false

/-- Rules make such gadgets from such gadgets. -/
theorem compares_kept : KeptByRules fun g => g.Compares = true where
  draws h hm := by
    cases h with
    | @carry e b _ _ hperm h =>
      simpa [Compares] using hm (.bounds b) (hperm.symm.subset (by simp))
    | chain hperm h =>
      obtain ⟨_, _, x, y, -, -, -, -, rfl⟩ := Equality.chain?_eq_some h
      rfl
  makes h hm := by
    cases h with
    | @point b _ h => simpa [Compares] using hm (.bounds b) (by simp)
    | @touch a b _ _ hperm h =>
      simpa [Compares] using hm (.bounds a) (hperm.symm.subset (by simp))
    | @intersect a b _ _ hperm h =>
      simpa [Compares] using hm (.bounds a) (hperm.symm.subset (by simp))
    | tautology h =>
      obtain ⟨-, rfl⟩ := Equality.trivial?_eq_some h
      simp
    | distinct h =>
      obtain ⟨-, rfl⟩ := Inequality.trivial?_eq_some h
      simp
    | @single m _ h => simpa [Compares] using hm (.membership m) (by simp)

end Gadget

/-- The values of classes make settled equalities and inequalities hold. -/
theorem Settled.satisfies_classValue {hashing : Hashing} (h : Settled out)
    (hcompares : ∀ g ∈ out, g.Compares = true)
    (hvars : ∀ g ∈ out, ∀ a ∈ g.vars,
      (a.literal.isSealed = true ↔ a.visibility = .witness) ∧ a.type ≠ .boolean) :
    Satisfies hashing (.choosing (classValue out)) out := by
  intro g hg
  have hmem := fun a (ha : a ∈ g.vars) => h.choosing_classValue (mem_quantities hg ha)
  cases g with
  | equality e =>
    change Assignment.value _ e.left.identity = Assignment.value _ e.right.identity
    rw [hmem e.left (by simp [Gadget.vars]), hmem e.right (by simp [Gadget.vars])]
    exact h.classValue_eq_of_alike (.inr ⟨e, e.left, e.right, hg, .inl rfl, rfl, rfl⟩)
  | inequality i =>
    change Assignment.value _ i.left.identity ≠ Assignment.value _ i.right.identity
    have hl : i.left ∈ (Gadget.inequality i).vars := by simp [Gadget.vars]
    have hr : i.right ∈ (Gadget.inequality i).vars := by simp [Gadget.vars]
    rw [hmem i.left hl, hmem i.right hr]
    intro heq
    rcases h.alike_of_classValue_eq (mem_quantities hg hl) (mem_quantities hg hr)
      (hvars _ hg _ hl).2 (hvars _ hg _ hr).2 heq with hsame | hlinks
    · -- a quantity that is not disclosed is a witness, hence sealed
      have hoperand : sameOperand i.left i.right = true := by
        refine sameOperand_iff.2 ⟨hsame.symm, ?_⟩
        cases hv : i.left.visibility with
        | disclosed => exact .inl hv
        | witness => exact .inr ((hvars _ hg _ hl).1.2 hv)
      rw [h.not_sameOperand_inequality hg] at hoperand
      cases hoperand
    · exact h.not_links hg hlinks
  | _ => cases hcompares _ hg

namespace Optimizer

/-- **Contradictions between equalities and inequalities are found.** Let all gadgets be equalities
and inequalities that meet their contracts, of witnesses that are sealed and of disclosed values
that are known, none of them booleans, and let the optimizer not run out of steps under all rules.
It reports a contradiction if and only if the gadgets hold under no assignment of values of the
right types. -/
theorem optimize_equalities (cap : Nat) (gadgets : List Gadget)
    (hcompares : ∀ g ∈ gadgets, (∃ e, g = .equality e) ∨ ∃ i, g = .inequality i)
    (hcheck : ∀ g ∈ gadgets, g.check = .ok ())
    (hvars : ∀ g ∈ gadgets, ∀ a ∈ g.vars,
      (a.literal.isSealed = true ↔ a.visibility = .witness) ∧ a.type ≠ .boolean)
    (hcap : optimize .standard cap gadgets ≠ .error (notConverged cap)) (hashing : Hashing) :
    (∃ error, optimize .standard cap gadgets = .error error ∧ error.kind = .contradiction) ↔
      ∀ σ : Assignment, σ.Typed → ¬ Satisfies hashing σ gadgets := by
  constructor
  · rintro ⟨error, herror, hkind⟩ σ -
    refine not_satisfies_of_optimize herror hkind fun g hg => ⟨hcheck g hg, fun a ha hd => ?_⟩
    rw [Bool.eq_false_iff, ne_eq, (hvars g hg a ha).1, hd]
    simp
  · intro hnone
    refine (ok_or_contradiction hcap).resolve_left fun ⟨out, hout⟩ => ?_
    have hsettled := settled_of_optimize hcheck hout
    have hcompares' : ∀ g ∈ gadgets, g.Compares = true := by
      intro g hg
      rcases hcompares g hg with ⟨e, rfl⟩ | ⟨i, rfl⟩
      · rfl
      · rfl
    have hsat : Satisfies hashing (.choosing (classValue out)) out :=
      hsettled.satisfies_classValue (Gadget.compares_kept.optimize hout hcompares')
        ((KeptByRules.vars _).optimize hout hvars)
    exact hnone _ (Assignment.typed_choosing hsettled.classValue_type)
      ((satisfies_optimize hout hcheck).1 hsat)

/-- Chains of equalities join two quantities that are said to differ to numbers. -/
def chainedEqualities (n : Int) : List Gadget :=
  [.equality ⟨.constant (.integer 7), sealedInteger "a"⟩,
    .equality ⟨sealedInteger "b", sealedInteger "a"⟩,
    .equality ⟨sealedInteger "c", sealedInteger "d"⟩,
    .equality ⟨sealedInteger "d", .constant (.integer n)⟩,
    .inequality ⟨sealedInteger "b", sealedInteger "c"⟩,
    .inequality ⟨sealedInteger "e", sealedInteger "b"⟩]

theorem optimize_equalities_chainedEqualities :
    (∀ hashing, ∀ σ : Assignment, σ.Typed → ¬ Satisfies hashing σ (chainedEqualities 7)) ∧
      ∀ hashing, ∃ σ : Assignment, σ.Typed ∧ Satisfies hashing σ (chainedEqualities 8) := by
  have hcompares : ∀ n, ∀ g ∈ chainedEqualities n,
      (∃ e, g = .equality e) ∨ ∃ i, g = .inequality i := by simp [chainedEqualities]
  obtain ⟨error, h7, hkind⟩ : ∃ error, optimize .standard 4 (chainedEqualities 7) = .error error ∧
      error.kind = .contradiction := ⟨_, rfl, rfl⟩
  obtain ⟨out, h8⟩ : ∃ out, optimize .standard 4 (chainedEqualities 8) = .ok out := ⟨_, rfl⟩
  constructor
  · intro hashing
    have hcap : optimize .standard 4 (chainedEqualities 7) ≠ .error (notConverged 4) := by
      rw [h7]
      rintro ⟨⟩
      cases hkind
    exact (optimize_equalities 4 _ (hcompares 7) (by decide +kernel) (by decide +kernel) hcap
      hashing).1 ⟨error, h7, hkind⟩
  · intro hashing
    by_contra hnone
    simp only [not_exists, not_and] at hnone
    obtain ⟨error, herror, -⟩ := (optimize_equalities 4 _ (hcompares 8) (by decide +kernel)
      (by decide +kernel) (by simp [h8]) hashing).2 hnone
    cases h8.symm.trans herror

end Optimizer

end Attestation
