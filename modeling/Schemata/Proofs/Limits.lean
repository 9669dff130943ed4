import Schemata.Proofs.Clean
import Schemata.Proofs.RepeatFindings

/-!
# The limits of arrays

How large an array may be follows from the bounds of its member, which can be read in two ways:
exactly as they are written, or with one bound standing for both where the other is missing. The
bounds are also judged by themselves (`Cardinality.faults`), and that the two readings fit together
rests on this: if the bounds make sense, there is no upper bound of zero, so that to count zero as
missing makes no difference but to a lower bound, where none is needed
(`ArrayBounds.limits_exactWhenUnbound_within`). What is reported at a member are these faults, told
by their wording (`Snapshot.saysOfBounds_iff`).
-/

namespace Schemata

section Classes

variable {classes : Text.IdentifierClasses}

/-! ### Bounds that make sense -/

namespace Cardinality

variable {c : Cardinality}

theorem reversed_mem_faults_iff : .reversed ∈ c.faults ↔ c.max < c.min := by
  simp [faults]

theorem zero_mem_faults_iff : .zero ∈ c.faults ↔ c.upper = some 0 ∧ c.min = 0 := by
  simp [faults]

/-- No bounds have both faults: the second asks for a minimum of zero, and nothing is less. -/
theorem zero_not_mem_faults_of_reversed (h : .reversed ∈ c.faults) : .zero ∉ c.faults := by
  rw [reversed_mem_faults_iff] at h
  rw [zero_mem_faults_iff]
  rintro ⟨-, hmin⟩
  exact UInt64.not_lt_zero (hmin ▸ h)

theorem sensible_iff_not_mem_faults :
    c.Sensible ↔ .reversed ∉ c.faults ∧ .zero ∉ c.faults := by
  rw [← faults_eq_nil_iff, List.eq_nil_iff_forall_not_mem]
  refine ⟨fun h ↦ ⟨h _, h _⟩, fun ⟨hreversed, hzero⟩ f hf ↦ ?_⟩
  simp only [faults, List.mem_append, List.mem_ite_nil_right, List.mem_singleton] at hf
  rcases hf with ⟨hlt, -⟩ | ⟨hboth, -⟩
  · exact hreversed (reversed_mem_faults_iff.2 hlt)
  · exact hzero (zero_mem_faults_iff.2 hboth)

namespace Sensible

theorem min_le_max (h : c.Sensible) : c.min ≤ c.max := by
  have hreversed := (sensible_iff_not_mem_faults.1 h).1
  rwa [reversed_mem_faults_iff, UInt64.not_lt] at hreversed

/-- There is no upper bound of zero. The lower bound would be zero too, or missing. -/
theorem upper_ne_zero (h : c.Sensible) : c.upper ≠ some 0 := by
  intro hupper
  refine h.not_zero ⟨hupper, ?_⟩
  cases hlower : c.lower with
  | none => exact .inl rfl
  | some l => exact .inr (congrArg some (UInt64.le_zero_iff.1 (h.lower_le_upper l hlower 0 hupper)))

end Sensible

end Cardinality

/-! ### Limits -/

namespace ArrayBounds

variable {c : Cardinality}

/-- Whether the size of an array is within the limits. -/
def Admits (b : ArrayBounds) (c : Cardinality) (size : Nat) : Prop :=
  (b.limits c).1.toNat ≤ size ∧ size ≤ (b.limits c).2.toNat

/-- A lower bound of zero admits what a missing one does. -/
theorem getD_filter_ne_zero (bound : Option UInt64) :
    (bound.filter (· != 0)).getD 0 = bound.getD 0 := by
  cases bound with
  | none => rfl
  | some n => by_cases hn : n = 0 <;> simp [Option.filter_some, hn]

theorem filter_upper_ne_zero (h : c.Sensible) : c.upper.filter (· != 0) = c.upper := by
  cases hupper : c.upper with
  | none => rfl
  | some u =>
    have hu : u ≠ 0 := fun hu ↦ h.upper_ne_zero (hu ▸ hupper)
    simp [hu]

/-- A member that holds an array has the limits that are written. -/
theorem limits_of_isArray (h : c.Sensible) (harray : c.isArray = true) :
    exactWhenUnbound.limits c = declared.limits c := by
  simp only [limits, harray, if_true, filter_upper_ne_zero h, getD_filter_ne_zero]
  rfl

/-- Limits that are exact where a bound is missing are within those that are written. -/
theorem limits_exactWhenUnbound_within (h : c.Sensible) :
    c.min ≤ (exactWhenUnbound.limits c).1 ∧
      (exactWhenUnbound.limits c).1 ≤ (exactWhenUnbound.limits c).2 ∧
        (exactWhenUnbound.limits c).2 ≤ c.max := by
  cases harray : c.isArray with
  | true =>
    rw [limits_of_isArray h harray]
    exact ⟨UInt64.le_refl _, h.min_le_max, UInt64.le_refl _⟩
  | false =>
    have hmin : (c.lower.filter (· != 0)).getD 0 = c.min := getD_filter_ne_zero c.lower
    have hle := h.min_le_max
    simp only [limits, harray, Bool.false_eq_true, if_false, filter_upper_ne_zero h]
    rw [Cardinality.max] at hle ⊢
    -- a lower bound that counts is the minimum; without one the upper bound stands for it
    cases hlower : c.lower.filter (· != 0) with
    | none =>
      rw [hlower] at hmin
      rw [← hmin, Option.none_or, Option.or_none]
      refine ⟨UInt64.zero_le, ?_, UInt64.le_refl _⟩
      cases c.upper with
      | none => exact UInt64.zero_le
      | some u => exact UInt64.le_refl u
    | some l =>
      rw [hlower, Option.getD_some] at hmin
      rw [Option.some_or, Option.getD_some, hmin]
      refine ⟨UInt64.le_refl _, ?_⟩
      cases hupper : c.upper with
      | none => exact ⟨UInt64.le_refl _, Cardinality.le_unbounded _⟩
      | some u =>
        rw [hupper] at hle
        exact ⟨hle, UInt64.le_refl u⟩

end ArrayBounds

/-! ### What is reported -/

namespace Snapshot

variable {s : Snapshot} {n : NodeId} {m : Member}

/-- Whether the check of its file reports a fault of bounds at a member. -/
def SaysOfBounds (s : Snapshot) (n : NodeId) (f : CardinalityFault) : Prop :=
  ∃ x ∈ s.evaluate (s.check n.file),
    x.node = n ∧ x.code = some "invalid-cardinality" ∧ x.message = f.message

/-- The snapshot under other settings of the bounds of arrays. -/
def withArrayBounds (s : Snapshot) (b : ArrayBounds) : Snapshot :=
  { s with settings := { s.settings with arrayBounds := b } }

/-- In the check of its file, the bounds of a member are judged by themselves. -/
theorem filter_invalidCardinality_check (h : s.catalog.Loaded)
    (hn : s.catalog.content? n = some (.member m)) :
    (s.evaluate (s.check n.file)).filter
        (fun x ↦ x.code == some "invalid-cardinality" && x.node == n) =
      s.evaluate (s.cardinalityFindings n m) := by
  have hbounds : (s.evaluate (s.cardinalityFindings n m)).filter
      (·.code == some "invalid-cardinality") = s.evaluate (s.cardinalityFindings n m) := by
    refine List.filter_eq_self.2 fun x hx ↦ ?_
    rw [evaluate_cardinalityFindings] at hx
    obtain ⟨fault, -, rfl⟩ := List.mem_map.1 hx
    rfl
  rw [filter_code_check_eq_filter_contentFindings h hn (by decide) (by decide),
    evaluate_contentFindings_member hn, evaluate_memberFindings, List.filter_append, hbounds,
    List.append_right_eq_self]
  refine List.filter_eq_nil_iff.2 fun x hx ↦ ?_
  split at hx
  · rcases code_of_mem_valueFindings hx with hcode | hcode | hcode <;> simp [hcode]
  · cases hx

end Snapshot

namespace CardinalityFault

/-- The letter with which the wording of a fault starts. -/
def initial : CardinalityFault → Char
  | .reversed => 'T'
  | .zero => 'C'
  | .tooManyBooleans | .tooManyLiterals _ => 'A'

theorem head?_toList_append {s : String} {c : Char} (h : s.toList.head? = some c) (t : String) :
    (s ++ t).toList.head? = some c := by
  rw [String.toList_append, List.head?_append, h, Option.some_or]

theorem head?_toList_message (f : CardinalityFault) : f.message.toList.head? = some f.initial := by
  cases f with
  | tooManyLiterals count =>
    exact head?_toList_append (c := 'A') (head?_toList_append (by decide +kernel) _) _
  | _ => decide +kernel

/-- The faults of bounds by themselves are not worded like any other. -/
theorem eq_of_message_eq {f g : CardinalityFault} (hf : f = .reversed ∨ f = .zero)
    (h : g.message = f.message) : g = f := by
  have hinitial : g.initial = f.initial := by
    rw [← Option.some.injEq, ← head?_toList_message, h, head?_toList_message]
  rcases hf with rfl | rfl <;> cases g <;> simp [initial] at hinitial ⊢

end CardinalityFault

namespace Snapshot

variable {s : Snapshot} {n : NodeId} {m : Member}

/-- The faults of unique values are others than those of the bounds by themselves. -/
theorem ne_of_mem_uniquenessFaults {f : CardinalityFault}
    (hf : f ∈ s.evaluate (s.uniquenessFaults n m)) : f ≠ .reversed ∧ f ≠ .zero := by
  rw [uniquenessFaults] at hf
  cases hunique : m.unique with
  | false => simp [evaluate, hunique] at hf
  | true =>
    cases hupper : m.cardinality.upper with
    | none => simp [evaluate, hunique, hupper] at hf
    | some upper =>
      cases hw : s.catalog.memberType? n with
      | none => simp [evaluate, hunique, hupper, hw] at hf
      | some p =>
        obtain ⟨t, w⟩ := p
        simp only [hunique, hupper, hw] at hf
        cases w with
        | boolean =>
          obtain ⟨-, rfl⟩ : 2 < upper ∧ f = .tooManyBooleans := by simpa [evaluate] using hf
          simp
        | enumeration r =>
          change f ∈ Query.eval _ (s.literalCount? t >>= _) at hf
          rw [Query.eval_bind] at hf
          cases hcount : Query.eval s.answer (s.literalCount? t) with
          | none => simp [hcount] at hf
          | some count =>
            obtain ⟨-, rfl⟩ : count < upper.toNat ∧ f = .tooManyLiterals count := by
              simpa [hcount] using hf
            simp
        | _ => simp [evaluate] at hf

theorem saysOfBounds_iff (h : s.catalog.Loaded) (hn : s.catalog.content? n = some (.member m))
    {f : CardinalityFault} (hf : f = .reversed ∨ f = .zero) :
    s.SaysOfBounds n f ↔ f ∈ m.cardinality.faults := by
  have hmem (x : Diagnostic) : (x ∈ s.evaluate (s.check n.file) ∧
      x.code = some "invalid-cardinality" ∧ x.node = n) ↔
        x ∈ s.evaluate (s.cardinalityFindings n m) := by
    rw [← filter_invalidCardinality_check h hn, List.mem_filter, Bool.and_eq_true, beq_iff_eq,
      beq_iff_eq]
  rw [evaluate_cardinalityFindings] at hmem
  constructor
  · rintro ⟨x, hx, hnode, hcode, hmessage⟩
    obtain ⟨g, hg, rfl⟩ := List.mem_map.1 ((hmem x).1 ⟨hx, hcode, hnode⟩)
    obtain rfl : g = f := CardinalityFault.eq_of_message_eq hf hmessage
    refine (List.mem_append.1 hg).resolve_right fun hg ↦ ?_
    exact hf.elim (ne_of_mem_uniquenessFaults hg).1 (ne_of_mem_uniquenessFaults hg).2
  · intro hmemf
    obtain ⟨hx, hcode, hnode⟩ := (hmem _).2 (List.mem_map_of_mem (List.mem_append_left _ hmemf))
    exact ⟨_, hx, hnode, hcode, rfl⟩

end Snapshot

/-- **The limits of arrays fit together.** No bounds are reported as reversed and as zero. If they
are reported as neither, then both readings of them leave sizes to have. A size that the exact
reading admits is admitted as the bounds are written, and where a member holds an array the two
readings are the same. What is reported at a member are the faults of its bounds, and whether the
size of an array is accepted is decided by the limits. -/
theorem ArrayBounds.limits_nested [Text.IdentifierClasses] (c : Cardinality) :
    (.reversed ∈ c.faults → .zero ∉ c.faults) ∧
      (.reversed ∉ c.faults → .zero ∉ c.faults →
        (∀ b : ArrayBounds, (b.limits c).1 ≤ (b.limits c).2 ∧ ∃ size, b.Admits c size) ∧
        (declared.limits c).1 ≤ (exactWhenUnbound.limits c).1 ∧
        (exactWhenUnbound.limits c).2 ≤ (declared.limits c).2 ∧
        (c.isArray = true → exactWhenUnbound.limits c = declared.limits c) ∧
        ∀ size, exactWhenUnbound.Admits c size → declared.Admits c size) ∧
      ∀ s : Snapshot, s.catalog.Loaded → ∀ n m, s.catalog.content? n = some (.member m) →
        m.cardinality = c →
          (s.SaysOfBounds n .reversed ↔ .reversed ∈ c.faults) ∧
          (s.SaysOfBounds n .zero ↔ .zero ∈ c.faults) ∧
          ∀ b array, (s.withArrayBounds b).sizeFindings m array = [] ↔
            b.Admits c (s.catalog.children array).length := by
  refine ⟨Cardinality.zero_not_mem_faults_of_reversed, fun hreversed hzero ↦ ?_,
    fun s h n m hn hc ↦ ?_⟩
  · have hsensible := Cardinality.sensible_iff_not_mem_faults.2 ⟨hreversed, hzero⟩
    obtain ⟨hleast, hle, hgreatest⟩ := limits_exactWhenUnbound_within hsensible
    have hlimits (b : ArrayBounds) : (b.limits c).1 ≤ (b.limits c).2 := by
      cases b with
      | declared => exact hsensible.min_le_max
      | exactWhenUnbound => exact hle
    refine ⟨fun b ↦ ⟨hlimits b, _, Nat.le_refl _, UInt64.le_iff_toNat_le.1 (hlimits b)⟩, hleast,
      hgreatest, limits_of_isArray hsensible, fun size hsize ↦ ⟨?_, ?_⟩⟩
    · exact (UInt64.le_iff_toNat_le.1 hleast).trans hsize.1
    · exact hsize.2.trans (UInt64.le_iff_toNat_le.1 hgreatest)
  · subst hc
    exact ⟨Snapshot.saysOfBounds_iff h hn (.inl rfl), Snapshot.saysOfBounds_iff h hn (.inr rfl),
      fun b array ↦ Snapshot.sizeFindings_eq_nil_iff⟩

end Classes

/-- A member of at most three values, and of no fewer than zero, that is not said to hold an
array. -/
def upToThree : Member := ⟨"x", .attribute, ⟨some 0, some 3, false⟩, false, false⟩

/-- A document that gives the member at place 2 an array of two values, at place 4. -/
def Snapshot.ofUpToThree : Snapshot :=
  .ofDocuments [.drafting ⟨0⟩ "m" [.declare (.entity ⟨"E", none,
    [⟨"x", .attribute, .integer, ⟨some 0, some 3, false⟩, false, false,
      some (.array [.scalar (.integer 1), .scalar (.integer 2)])⟩]⟩)]]

/-- Nothing is wrong with the bounds. The array is as large as they are written to admit, but not as
large as they are read exactly. -/
theorem ArrayBounds.limits_nested_ofUpToThree :
    Snapshot.ofUpToThree.catalog.Loaded ∧
      ¬ Snapshot.ofUpToThree.SaysOfBounds ⟨⟨0⟩, 2⟩ .reversed ∧
      ¬ Snapshot.ofUpToThree.SaysOfBounds ⟨⟨0⟩, 2⟩ .zero ∧
      (∀ size, exactWhenUnbound.Admits upToThree.cardinality size →
        declared.Admits upToThree.cardinality size) ∧
      (Snapshot.ofUpToThree.withArrayBounds .declared).sizeFindings upToThree ⟨⟨0⟩, 4⟩ = [] ∧
      (Snapshot.ofUpToThree.withArrayBounds .exactWhenUnbound).sizeFindings upToThree ⟨⟨0⟩, 4⟩ ≠
        [] := by
  obtain ⟨-, hfit, hreported⟩ := limits_nested upToThree.cardinality
  have hreversed : CardinalityFault.reversed ∉ upToThree.cardinality.faults := by decide
  have hzero : CardinalityFault.zero ∉ upToThree.cardinality.faults := by decide
  have hloaded : Snapshot.ofUpToThree.catalog.Loaded := .ofDrafting _ _ (by decide)
  obtain ⟨hsaysReversed, hsaysZero, hsize⟩ :=
    hreported Snapshot.ofUpToThree hloaded ⟨⟨0⟩, 2⟩ upToThree rfl rfl
  exact ⟨hloaded, fun h ↦ hreversed (hsaysReversed.1 h), fun h ↦ hzero (hsaysZero.1 h),
    (hfit hreversed hzero).2.2.2.2, (hsize _ _).2 ⟨by decide, by decide⟩,
    fun h ↦ absurd ((hsize _ _).1 h).1 (by decide)⟩

end Schemata
