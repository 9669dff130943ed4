import Schemata.Proofs.Values

/-!
# What differs from the type of a member

A value is compared with its member by inferred types. What comes of it can be told without them
(`Snapshot.mismatches_eq_filterMap_clash?`). A value of the wrong shape, an array for a member that
holds one value or one value for a member that holds an array, differs as a whole. In a value of the
right shape each scalar is compared by itself (`Snapshot.clash?`): a constant by its kind with the
kind of value that the written type of the member announces, and a reference by the entity or the
enumeration to which it leads. A reference that does not come to one node never differs.

The two sides meet in `Snapshot.valueKind?_of_declaredType`: if the type of a member is known, it is
of the kind that is announced without resolving anything. So a value in which nothing differs and of
which all references resolve is of the announced kind.
-/

namespace Schemata

/-- The kind of value that a scalar is. -/
def Scalar.kind {ρ : Type} : Scalar ρ → ValueKind
  | .boolean _ => .boolean
  | .integer _ => .integer
  | .float _ => .float
  | .string _ => .string
  | .literal _ => .literal
  | .contained _ => .contained

/-- The kind of the values of a type. -/
def DataType.valueKind : DataType → ValueKind
  | .boolean => .boolean
  | .integer => .integer
  | .float => .float
  | .string => .string
  | .enumeration _ => .literal
  | .entity _ => .contained

namespace Snapshot

section Classes

variable {classes : Text.IdentifierClasses}

variable {s : Snapshot}

variable (s) in
/-- What a scalar is called if it differs from the type of a member: a constant by its kind, and a
reference by the entity or the enumeration to which it leads. -/
def clash? (member : NodeId) (t : DataType) (x : NodeId) : Option String :=
  match s.catalog.content? x with
  | some (.value (.contained _)) =>
    (s.targetAt? x).bind fun e ↦
      if t = .entity e then none else some ((s.catalog.name? e).getD "")
  | some (.value (.literal _)) =>
    (s.targetAt? x).bind fun l ↦ (s.catalog.parent? l).bind fun e ↦
      if t = .enumeration e then none else some ((s.catalog.name? e).getD "")
  | some (.value v) =>
    if s.catalog.valueKind? member = some v.kind then none else some v.kind.text
  | _ => none

/-- A reference that does not come to one node never differs. -/
theorem clash?_eq_none {member x : NodeId} {t : DataType} (hx : s.HasReference x)
    (hnone : s.targetAt? x = none) : s.clash? member t x = none := by
  obtain ⟨content, site, r, hc, hr⟩ := hx
  rw [clash?, hc, hnone]
  cases content with
  | value v =>
    cases v with
    | literal r | contained r => rfl
    | _ => cases hr
  | _ => rfl

/-- A known type is of the kind that the member announces. -/
theorem valueKind?_of_declaredType (h : s.catalog.Loaded) {member : NodeId} {m : Member}
    {t : DataType} (hm : s.catalog.content? member = some (.member m))
    (ht : s.evaluate (s.declaredType member) = some t) :
    s.catalog.valueKind? member = some t.valueKind := by
  have hdeclares : s.Declares member t :=
    (declares_iff h hm).2 ((evaluate_declaredType_eq h hm).symm.trans ht)
  cases hdeclares with
  | boolean hu | integer hu | float hu | string hu =>
    rw [Catalog.valueKind?, hu]
    rfl
  | enumeration hu | entity hu =>
    rw [Catalog.valueKind?, hu]
    rfl

theorem evaluate_scalarMismatch? (t : DataType) (x : NodeId) :
    s.evaluate (s.scalarMismatch? t x) = (s.typeAt? x).bind fun found ↦
      if t = found then none else some ⟨x, t.name s.catalog, found.name s.catalog⟩ := by
  rw [scalarMismatch?, evaluate, Query.eval_bind, eval_dataType]
  cases s.typeAt? x with
  | none => rfl
  | some found =>
    by_cases heq : t = found
    · simp [heq]
    · simp [heq, Ne.symm heq]

section Known

variable (h : s.catalog.Loaded) {member : NodeId} {m : Member} {t : DataType}
  (hm : s.catalog.content? member = some (.member m))
  (ht : s.evaluate (s.declaredType member) = some t)
include h hm ht

/-- The comparison of inferred types finds what the kinds and the references tell. -/
theorem scalarMismatch?_eq_clash? {x : NodeId} {v : Scalar Reference}
    (hx : s.catalog.content? x = some (.value v)) :
    s.evaluate (s.scalarMismatch? t x) =
      (s.clash? member t x).map (⟨x, t.name s.catalog, ·⟩) := by
  have hkind := valueKind?_of_declaredType h hm ht
  rw [evaluate_scalarMismatch?]
  cases v with
  | boolean b | integer i | float z | string z =>
    -- the types of constants are told apart by their kinds
    simp only [typeAt?_eq h, infer, hx, clash?, hkind]
    cases t <;> rfl
  | literal r =>
    simp only [typeAt?_literal h hx, clash?, hx]
    cases s.targetAt? x with
    | none => rfl
    | some l =>
      simp only [Option.bind_some]
      cases s.catalog.parent? l with
      | none => rfl
      | some e => by_cases heq : t = .enumeration e <;> simp [heq, DataType.name]
  | contained r =>
    simp only [typeAt?_contained h hx, clash?, hx]
    cases s.targetAt? x with
    | none => rfl
    | some e => by_cases heq : t = .entity e <;> simp [heq, DataType.name]

/-- In a value of the right shape each scalar is compared by itself, in order. -/
theorem mismatches_eq_filterMap_clash? {value : NodeId} {k : Kind}
    (hk : s.catalog.kind? value = some k) (hvalue : k.isValue = true)
    (hshape : m.cardinality.isArray = true ↔ s.catalog.content? value = some .array) :
    s.evaluate (s.mismatches member value) =
      (s.catalog.scalarsOf value).filterMap fun x ↦
        (s.clash? member t x).map (⟨x, t.name s.catalog, ·⟩) := by
  have hscalar : ∀ x ∈ s.catalog.scalarsOf value, s.evaluate (s.scalarMismatch? t x) =
      (s.clash? member t x).map (⟨x, t.name s.catalog, ·⟩) := by
    intro x hx
    obtain ⟨v, hv⟩ := h.exists_scalar_of_mem_scalarsOf hk hvalue hx
    exact scalarMismatch?_eq_clash? h hm ht hv
  rw [← List.filterMap_congr hscalar]
  obtain ⟨content, hc, rfl⟩ := Catalog.exists_content?_of_kind? hk
  rw [evaluate_mismatches hm ht hc]
  cases content with
  | array =>
    have hscalars : s.catalog.scalarsOf value = s.catalog.children value := by
      rw [Catalog.scalarsOf, hc]
    rw [hshape.2 hc, hscalars]
  | value v =>
    have hscalars : s.catalog.scalarsOf value = [value] := by rw [Catalog.scalarsOf, hc]
    have hone : m.cardinality.isArray = false := by simpa [hc] using hshape
    rw [hone, hscalars, List.filterMap_cons]
    cases s.evaluate (s.scalarMismatch? t value) <;> rfl
  | _ => cases hvalue

/-- A scalar that does not differ is of the announced kind, if its reference resolves. -/
theorem valueKind?_of_clash?_eq_none {x : NodeId} {v : Scalar Reference}
    (hx : s.catalog.content? x = some (.value v)) (hnone : s.clash? member t x = none)
    (hfound : s.HasReference x → ∃ u, s.targetAt? x = some u) :
    s.catalog.valueKind? member = some v.kind := by
  have hkind := valueKind?_of_declaredType h hm ht
  simp only [clash?, hx] at hnone
  cases v with
  | boolean b | integer i | float z | string z => simpa using hnone
  | literal r =>
    obtain ⟨l, hl⟩ := hfound ⟨_, _, r, hx, rfl⟩
    obtain ⟨-, -, -, e, -, -, -, hparent, -⟩ := exists_literal_of_literal h hx hl
    have htype : t = .enumeration e := by simpa [hl, hparent] using hnone
    rw [hkind, htype]
    rfl
  | contained r =>
    obtain ⟨e, he⟩ := hfound ⟨_, _, r, hx, rfl⟩
    have htype : t = .entity e := by simpa [he] using hnone
    rw [hkind, htype]
    rfl

/-- A value in which nothing differs has the right shape, and its scalars are of the announced kind
as far as their references resolve. -/
theorem valueKind?_of_mismatches_eq_nil {value : NodeId} {k : Kind}
    (hk : s.catalog.kind? value = some k) (hvalue : k.isValue = true)
    (hnil : s.evaluate (s.mismatches member value) = []) {x : NodeId} {v : Scalar Reference}
    (hmem : x ∈ s.catalog.scalarsOf value) (hx : s.catalog.content? x = some (.value v))
    (hfound : s.HasReference x → ∃ u, s.targetAt? x = some u) :
    s.catalog.valueKind? member = some v.kind := by
  obtain ⟨content, hc, -⟩ := Catalog.exists_content?_of_kind? hk
  have hshape : m.cardinality.isArray = true ↔ s.catalog.content? value = some .array := by
    by_contra hne
    rw [evaluate_mismatches hm ht hc] at hnil
    cases harray : m.cardinality.isArray with
    | false =>
      obtain rfl : content = .array := by simpa [harray, hc] using hne
      rw [harray] at hnil
      cases hnil
    | true =>
      have hother : content ≠ .array := by simpa [harray, hc] using hne
      rw [harray] at hnil
      cases content <;> first | exact hother rfl | cases hnil
  rw [mismatches_eq_filterMap_clash? h hm ht hk hvalue hshape, List.filterMap_eq_nil_iff] at hnil
  exact valueKind?_of_clash?_eq_none h hm ht hx (Option.map_eq_none_iff.1 (hnil x hmem)) hfound

end Known

/-- **What differs from the type of a member.** Nothing does if the type is not known. If it is, a
value of the wrong shape differs as a whole, and in a value of the right shape each scalar by itself
and in order: a constant if it is not of the kind that the member announces, a contained value if it
comes to an entity other than that of the type, a literal if it comes to a literal of an enumeration
other than that of the type, and a reference that does not come to one node never. So the scalars of
a value in which nothing differs are of the announced kind, if all its references resolve, and an
integer is never taken for a floating-point number nor the other way round. -/
theorem mismatches_eq (s : Snapshot) (h : s.catalog.Loaded) (member value : NodeId) {m : Member}
    {k : Kind} (hm : s.catalog.content? member = some (.member m))
    (hk : s.catalog.kind? value = some k) (hvalue : k.isValue = true) :
    (s.evaluate (s.declaredType member) = none → s.evaluate (s.mismatches member value) = []) ∧
    ∀ t, s.evaluate (s.declaredType member) = some t →
      (m.cardinality.isArray = false → s.catalog.content? value = some .array →
        s.evaluate (s.mismatches member value) = [⟨value, t.name s.catalog, "array"⟩]) ∧
      (m.cardinality.isArray = true → s.catalog.content? value ≠ some .array →
        s.evaluate (s.mismatches member value) =
          [⟨value, "Array of " ++ t.name s.catalog, s.evaluate (s.foundName value)⟩]) ∧
      ((m.cardinality.isArray = true ↔ s.catalog.content? value = some .array) →
        s.evaluate (s.mismatches member value) =
          (s.catalog.scalarsOf value).filterMap fun x ↦
            (s.clash? member t x).map (⟨x, t.name s.catalog, ·⟩)) ∧
      (∀ x, s.HasReference x → (∀ u, s.resolutionAt x ≠ .found u) →
        s.clash? member t x = none) ∧
      (s.evaluate (s.mismatches member value) = [] →
        ((∀ x ∈ s.catalog.scalarsOf value, s.HasReference x → ∃ u, s.resolutionAt x = .found u) →
          ∀ x ∈ s.catalog.scalarsOf value, ∃ v, s.catalog.content? x = some (.value v) ∧
            s.catalog.valueKind? member = some v.kind) ∧
        ∀ x ∈ s.catalog.scalarsOf value,
          (t = .float → ∀ i, s.catalog.content? x ≠ some (.value (.integer i))) ∧
          (t = .integer → ∀ z, s.catalog.content? x ≠ some (.value (.float z)))) := by
  obtain ⟨content, hc, hkind⟩ := Catalog.exists_content?_of_kind? hk
  refine ⟨mismatches_of_untyped, fun t ht ↦ ⟨fun hone harray ↦ ?_, fun hmany hother ↦ ?_,
    mismatches_eq_filterMap_clash? h hm ht hk hvalue, fun x hx hnone ↦ ?_, fun hnil ↦
      ⟨fun hfound x hx ↦ ?_, fun x hx ↦ ⟨fun hfloat i hi ↦ ?_, fun hinteger z hz ↦ ?_⟩⟩⟩⟩
  · rw [evaluate_mismatches hm ht harray, hone]
  · rw [evaluate_mismatches hm ht hc, hmany]
    cases content with
    | array => exact absurd hc hother
    | _ => rfl
  · exact clash?_eq_none hx (Option.eq_none_iff_forall_ne_some.2 fun u hu ↦
      hnone u (targetAt?_eq_some_iff.1 hu))
  · obtain ⟨v, hv⟩ := h.exists_scalar_of_mem_scalarsOf hk hvalue hx
    refine ⟨v, hv, valueKind?_of_mismatches_eq_nil h hm ht hk hvalue hnil hx hv fun href ↦ ?_⟩
    obtain ⟨u, hu⟩ := hfound x hx href
    exact ⟨u, targetAt?_eq_some_iff.2 hu⟩
  · -- a constant needs no reference to be compared
    have hinteger := valueKind?_of_mismatches_eq_nil h hm ht hk hvalue hnil hx hi
      fun href ↦ absurd href (not_hasReference hi rfl)
    rw [valueKind?_of_declaredType h hm ht, hfloat] at hinteger
    cases hinteger
  · have hfloat := valueKind?_of_mismatches_eq_nil h hm ht hk hvalue hnil hx hz
      fun href ↦ absurd href (not_hasReference hz rfl)
    rw [valueKind?_of_declaredType h hm ht, hinteger] at hfloat
    cases hfloat

end Classes

/-- One entity with a member that holds an array of floating-point numbers. Place 2 is the member, 4
its default, and 5 to 8 the elements of the default. -/
def ofMixedArray : Snapshot :=
  .ofDocuments [.drafting ⟨0⟩ "m" [.declare (.entity ⟨"E", none, [⟨"xs", .attribute, .float,
    ⟨none, none, true⟩, false, false, some (.array [.scalar (.integer 1), .scalar (.float ⟨0⟩),
      .scalar (.literal "Red"), .scalar (.string "two")])⟩]⟩)]]

theorem loaded_ofMixedArray : ofMixedArray.catalog.Loaded := .ofDrafting _ _ (by decide)

/-- There the integer and the string differ, and the literal, which resolves to nothing, does
not. -/
theorem mismatches_eq_ofMixedArray :
    ofMixedArray.catalog.Loaded ∧
      ofMixedArray.evaluate (ofMixedArray.mismatches ⟨⟨0⟩, 2⟩ ⟨⟨0⟩, 4⟩) =
        [⟨⟨⟨0⟩, 5⟩, "float", "integer"⟩, ⟨⟨⟨0⟩, 8⟩, "float", "string"⟩] := by
  have hknown : ofMixedArray.evaluate (ofMixedArray.declaredType ⟨⟨0⟩, 2⟩) = some .float := by
    decide
  have harray : ofMixedArray.catalog.content? ⟨⟨0⟩, 4⟩ = some .array := rfl
  obtain ⟨-, -, hscalars, -⟩ := (mismatches_eq ofMixedArray loaded_ofMixedArray
    ⟨⟨0⟩, 2⟩ ⟨⟨0⟩, 4⟩ rfl (Catalog.kind?_of_content? harray) rfl).2 _ hknown
  exact ⟨loaded_ofMixedArray, (hscalars ⟨fun _ ↦ harray, fun _ ↦ rfl⟩).trans (by decide)⟩

end Snapshot

end Schemata
