import Schemata.Proofs.Repeats
import Schemata.Proofs.WellFormed

/-!
# Values in which nothing is found

Nothing is found in a value that a file gives to a member exactly if it fits that member
(`Snapshot.valueFindings_eq_nil_iff_of_gives`), provided that no reference of the file is faulty.

The comparison of types is the check that could hide a fault. It passes over a value that has no
type, but a value that fits may not lack one where the type of the member is known. What closes the
gap is `Snapshot.typeAt?_ne_none_of_memberAt?`: under a member of a known type a scalar lacks a type
only if its own reference is faulty, which is a finding of its own. The reason is that a literal can
be blocked only by the type of its member, or by what keeps that member from being known.
-/

namespace Schemata

variable {classes : Text.IdentifierClasses}

/-! ### The scalars of a value -/

namespace Catalog

variable {c : Catalog}

/-- The scalars of a value belong to what the value belongs to. -/
theorem Loaded.valueOwner?_of_mem_scalarsOf (h : c.Loaded) {v value : NodeId}
    (hv : v ∈ c.scalarsOf value) : c.valueOwner? v = c.valueOwner? value ∧ v.file = value.file := by
  rw [scalarsOf] at hv
  split at hv
  · rename_i hc
    have hparent : c.parent? v = some value := h.mem_children_iff.1 hv
    exact ⟨h.valueOwner?_of_array hparent hc, file_of_mem_children hv⟩
  · rw [List.mem_singleton.1 hv]
    exact ⟨rfl, rfl⟩

end Catalog

namespace Snapshot

variable {s : Snapshot} {n : NodeId}

/-! ### Sizes and repeated elements of arrays -/

theorem sizeFindings_eq_nil_iff {m : Member} {array : NodeId} :
    s.sizeFindings m array = [] ↔
      (s.settings.arrayBounds.limits m.cardinality).1.toNat ≤ (s.catalog.children array).length ∧
        (s.catalog.children array).length ≤
          (s.settings.arrayBounds.limits m.cardinality).2.toNat := by
  rw [sizeFindings]
  dsimp only
  split
  · rename_i hlt
    simp [Nat.not_le.2 hlt]
  · rename_i hge
    split
    · rename_i hlt
      simp [Nat.not_le.2 hlt]
    · rename_i hle
      simp [Nat.not_lt.1 hge, Nat.not_lt.1 hle]

/-- What the key of a scalar says about it. -/
theorem elementKey?_eq_some_iff {x : Scalar Reference} {k : ElementKey}
    (hn : s.catalog.content? n = some (.value x)) :
    s.evaluate (s.elementKey? n) = some k ↔
      match k with
      | .boolean b => x = .boolean b
      | .integer i => x = .integer i
      | .float bits => ∃ z, x = .float z ∧ z.foldedBits = bits
      | .string t => x = .string t
      | .node t => s.targetAt? n = some t := by
  have hplain (hr : x.reference? = none) : s.targetAt? n = none := by
    rw [targetAt?, resolutionAt_of_no_reference (by rw [hn]; exact hr)]
    rfl
  simp only [elementKey?, hn]
  cases x with
  | boolean b =>
    have ht := hplain rfl
    cases k <;> simp [evaluate, ht]
  | integer i =>
    have ht := hplain rfl
    cases k <;> simp [evaluate, ht]
  | float z =>
    have ht := hplain rfl
    cases k <;> simp [evaluate, ht]
  | string z =>
    have ht := hplain rfl
    cases k <;> simp [evaluate, ht]
  | literal r => cases k <;> simp [evaluate]
  | contained r => cases k <;> simp [evaluate]

/-- Two scalars have the same key exactly if they are the same value. -/
theorem sameValue_iff {a b : NodeId} {x y : Scalar Reference}
    (ha : s.catalog.content? a = some (.value x)) (hb : s.catalog.content? b = some (.value y)) :
    s.SameValue a b ↔
      ∃ k, s.evaluate (s.elementKey? a) = some k ∧ s.evaluate (s.elementKey? b) = some k := by
  constructor
  · intro hsame
    cases hsame with
    | @boolean z hza hzb =>
      exact ⟨.boolean z, (elementKey?_eq_some_iff hza).2 rfl, (elementKey?_eq_some_iff hzb).2 rfl⟩
    | @integer z hza hzb =>
      exact ⟨.integer z, (elementKey?_eq_some_iff hza).2 rfl, (elementKey?_eq_some_iff hzb).2 rfl⟩
    | @float z z' hza hzb hbits =>
      have hfolded := (Binary64.foldedBits_eq_iff.2 hbits).symm
      exact ⟨.float z.foldedBits, (elementKey?_eq_some_iff hza).2 ⟨z, rfl, rfl⟩,
        (elementKey?_eq_some_iff hzb).2 ⟨z', rfl, hfolded⟩⟩
    | @string z hza hzb =>
      exact ⟨.string z, (elementKey?_eq_some_iff hza).2 rfl, (elementKey?_eq_some_iff hzb).2 rfl⟩
    | @reference z z' t hza hzb hta htb =>
      exact ⟨.node t, (elementKey?_eq_some_iff hza).2 (targetAt?_eq_some_iff.2 hta),
        (elementKey?_eq_some_iff hzb).2 (targetAt?_eq_some_iff.2 htb)⟩
  · rintro ⟨k, hka, hkb⟩
    have hka := (elementKey?_eq_some_iff ha).1 hka
    have hkb := (elementKey?_eq_some_iff hb).1 hkb
    cases k with
    | boolean z =>
      obtain rfl : x = .boolean z := hka
      obtain rfl : y = .boolean z := hkb
      exact .boolean ha hb
    | integer z =>
      obtain rfl : x = .integer z := hka
      obtain rfl : y = .integer z := hkb
      exact .integer ha hb
    | float bits =>
      obtain ⟨z, rfl, hz⟩ := hka
      obtain ⟨z', rfl, hz'⟩ := hkb
      exact .float ha hb (Binary64.foldedBits_eq_iff.1 (hz.trans hz'.symm))
    | string z =>
      obtain rfl : x = .string z := hka
      obtain rfl : y = .string z := hkb
      exact .string ha hb
    | node t => exact .reference ha hb (targetAt?_eq_some_iff.1 hka) (targetAt?_eq_some_iff.1 hkb)

theorem uniquenessFindings_eq_nil_iff (h : s.catalog.Loaded) {array : NodeId}
    (hc : s.catalog.content? array = some .array) :
    s.evaluate (s.uniquenessFindings array) = [] ↔
      (s.catalog.children array).Pairwise fun a b ↦ ¬ s.SameValue a b := by
  rw [evaluate_uniquenessFindings, List.map_eq_nil_iff]
  have hrepeats := repeats_filterMap_eq_nil_iff (fun e ↦ s.evaluate (s.elementKey? e))
    (fun e _ ↦ e) (s.catalog.children array)
  rw [hrepeats]
  refine List.Pairwise.iff_of_mem fun {a b} ha hb ↦ ?_
  obtain ⟨x, hx⟩ := h.value_of_mem_children hc ha
  obtain ⟨y, hy⟩ := h.value_of_mem_children hc hb
  rw [sameValue_iff hx hy]
  simp

theorem arrayFindings_eq_nil_iff (h : s.catalog.Loaded) {member value : NodeId} {m : Member}
    (hm : s.catalog.content? member = some (.member m)) :
    s.evaluate (s.arrayFindings member value) = [] ↔
      s.catalog.content? value = some .array →
        ((s.settings.arrayBounds.limits m.cardinality).1.toNat ≤
            (s.catalog.children value).length ∧
          (s.catalog.children value).length ≤
            (s.settings.arrayBounds.limits m.cardinality).2.toNat) ∧
        (m.unique = true →
          (s.catalog.children value).Pairwise fun a b ↦ ¬ s.SameValue a b) := by
  by_cases hc : s.catalog.content? value = some .array
  · have hmember : s.catalog.member? member = some m := by rw [Catalog.member?, hm]
    rw [evaluate_arrayFindings hmember hc, List.append_eq_nil_iff, sizeFindings_eq_nil_iff]
    cases m.unique with
    | false => simp [hc]
    | true => simp [hc, uniquenessFindings_eq_nil_iff h hc]
  · rw [arrayFindings_eq_nil (.inr hc)]
    exact ⟨fun _ harray ↦ absurd harray hc, fun _ ↦ rfl⟩

/-! ### Types of values -/

/-- Under a member of a known type a scalar has a type, unless its own reference is faulty. -/
theorem typeAt?_ne_none_of_memberAt? (h : s.catalog.Loaded) {v member : NodeId}
    {x : Scalar Reference} {m : Member} {t : DataType}
    (hv : s.catalog.content? v = some (.value x)) (hm : s.memberAt? v = some member)
    (hc : s.catalog.content? member = some (.member m)) (ht : s.typeAt? member = some t)
    (hfault : (s.resolutionAt v).isFault = false) : s.typeAt? v ≠ none := by
  intro hnone
  obtain ⟨u, hrests, hfails⟩ := (typeAt?_eq_none_iff_exists_fails h hv rfl).1 hnone
  obtain ⟨rfl, content, site, r, hc', hr⟩ :=
    (typeRestsOn_iff_own hv (by simp [Content.kind])).1 hrests
  obtain rfl : .value x = content := Option.some.inj (hv.symm.trans hc')
  have htarget : s.targetAt? u = none := hfails.resolve_right (not_misdirected hv (by simp))
  cases hs : s.candidatesAt u with
  | some scope =>
    rw [isFault_of_candidatesAt h hv hr hs htarget] at hfault
    cases hfault
  | none =>
    cases x with
    | literal r' =>
      -- a literal is blocked only by the type of its member, which is known
      obtain ⟨type, r'', hw, htypeFault, -⟩ := exists_type_of_literal h hv hm hc hs
      have hnone : s.targetAt? type = none := by
        rcases Resolution.isFault_iff.1 htypeFault with hres | ⟨targets, hres⟩
        · rw [targetAt?, hres]
          rfl
        · rw [targetAt?, hres]
          rfl
      rw [typeAt?_member h hc hw, typeAt?_enumerationType h (Catalog.content?_of_memberType? hw),
        hnone] at ht
      cases ht
    | contained r' =>
      rw [candidatesAt_contained hv] at hs
      cases hs
    | _ => cases hr

theorem scalarMismatch?_eq_none_iff {expected : DataType} {v : NodeId} :
    s.evaluate (s.scalarMismatch? expected v) = none ↔
      s.typeAt? v = none ∨ s.typeAt? v = some expected := by
  rw [scalarMismatch?, evaluate, Query.eval_bind, eval_dataType]
  cases s.typeAt? v with
  | none => simp
  | some found =>
    by_cases heq : found = expected
    · simp [heq]
    · simp [heq]

theorem evaluate_declaredType_eq (h : s.catalog.Loaded) {m : Member}
    (hn : s.catalog.content? n = some (.member m)) :
    s.evaluate (s.declaredType n) = s.typeAt? n := by
  obtain ⟨t, w, hw, -⟩ := h.exists_memberType hn
  rw [evaluate_declaredType hw, typeAt?_member h hn hw]

theorem mismatches_of_untyped {member value : NodeId}
    (hd : s.evaluate (s.declaredType member) = none) :
    s.evaluate (s.mismatches member value) = [] := by
  rw [mismatches]
  cases s.catalog.member? member with
  | none => rfl
  | some m =>
    rw [evaluate] at hd
    rw [evaluate, Query.eval_bind, hd]
    rfl

theorem evaluate_mismatches {member value : NodeId} {m : Member} {t : DataType}
    {content : Content Reference} (hm : s.catalog.content? member = some (.member m))
    (hd : s.evaluate (s.declaredType member) = some t)
    (hc : s.catalog.content? value = some content) :
    s.evaluate (s.mismatches member value) =
      match m.cardinality.isArray, content with
      | false, .array => [⟨value, t.name s.catalog, "array"⟩]
      | false, _ => (s.evaluate (s.scalarMismatch? t value)).toList
      | true, .array =>
        (s.catalog.children value).filterMap fun e ↦ s.evaluate (s.scalarMismatch? t e)
      | true, _ => [⟨value, "Array of " ++ t.name s.catalog, s.evaluate (s.foundName value)⟩] := by
  have hmember : s.catalog.member? member = some m := by rw [Catalog.member?, hm]
  rw [evaluate] at hd
  simp only [mismatches, hmember, evaluate, Query.eval_bind, hd, hc]
  cases m.cardinality.isArray with
  | false => cases content <;> simp
  | true => cases content <;> simp

/-- Nothing is found in the type of a value exactly if it is a scalar of the type of its member, or
an array of such scalars if the member asks for one. -/
theorem mismatches_eq_nil_iff (h : s.catalog.Loaded) {member value : NodeId} {m : Member} {k : Kind}
    (hm : s.catalog.content? member = some (.member m)) (hk : s.catalog.kind? value = some k)
    (hvalue : k.isValue = true) (hscalars : ∀ v ∈ s.catalog.scalarsOf value,
      s.memberAt? v = some member ∧ (s.resolutionAt v).isFault = false) :
    s.evaluate (s.mismatches member value) = [] ↔
      (m.cardinality.isArray = false → ∀ t, s.Declares member t → s.IsOf value t) ∧
      (m.cardinality.isArray = true → ∀ t, s.Declares member t →
        s.catalog.content? value = some .array ∧
          ∀ e ∈ s.catalog.children value, s.IsOf e t) := by
  have hdeclared := evaluate_declaredType_eq h hm
  simp only [declares_iff h hm]
  cases htype : s.typeAt? member with
  | none => simp [mismatches_of_untyped (hdeclared.trans htype)]
  | some t =>
    have hscalar (v : NodeId) (hv : v ∈ s.catalog.scalarsOf value) :
        s.evaluate (s.scalarMismatch? t v) = none ↔ s.IsOf v t := by
      obtain ⟨x, hx⟩ := h.exists_scalar_of_mem_scalarsOf hk hvalue hv
      obtain ⟨hbound, hfault⟩ := hscalars v hv
      have hne := typeAt?_ne_none_of_memberAt? h hx hbound hm htype hfault
      rw [scalarMismatch?_eq_none_iff, isOf_iff h hx, or_iff_right hne]
    obtain ⟨content, hc, rfl⟩ := Catalog.exists_content?_of_kind? hk
    rw [evaluate_mismatches hm (hdeclared.trans htype) hc]
    cases content with
    | value x =>
      have hself := hscalar value (by simp [Catalog.scalarsOf, hc])
      cases m.cardinality.isArray with
      | false => simp [hself]
      | true => simp [hc]
    | array =>
      have helements : ∀ e ∈ s.catalog.children value,
          (s.evaluate (s.scalarMismatch? t e) = none ↔ s.IsOf e t) := fun e he ↦
        hscalar e (by simpa [Catalog.scalarsOf, hc] using he)
      cases m.cardinality.isArray with
      | false =>
        have hnot : ¬ s.IsOf value t := by
          intro hof
          obtain ⟨x, hx⟩ := exists_scalar_of_isOf hof
          cases hc.symm.trans hx
        simp [hnot]
      | true => simpa [hc] using forall₂_congr helements
    | _ => cases hvalue

/-- Nothing is found in a value exactly if it fits its member. -/
theorem valueFindings_eq_nil_iff (h : s.catalog.Loaded) {member value : NodeId} {m : Member}
    {k : Kind} (hm : s.catalog.content? member = some (.member m))
    (hk : s.catalog.kind? value = some k) (hvalue : k.isValue = true)
    (hscalars : ∀ v ∈ s.catalog.scalarsOf value,
      s.memberAt? v = some member ∧ (s.resolutionAt v).isFault = false) :
    s.evaluate (s.valueFindings member value) = [] ↔ s.Fits member m value := by
  rw [evaluate_valueFindings, List.append_eq_nil_iff, evaluate_typeFindings, List.map_eq_nil_iff,
    mismatches_eq_nil_iff h hm hk hvalue hscalars, arrayFindings_eq_nil_iff h hm]
  constructor
  · rintro ⟨⟨hscalar, harray⟩, hshape⟩
    exact ⟨hscalar, harray, fun hc ↦ (hshape hc).1, fun hc ↦ (hshape hc).2⟩
  · intro hfits
    exact ⟨⟨hfits.scalar, hfits.array⟩, fun hc ↦ ⟨hfits.size hc, hfits.distinct hc⟩⟩

/-! ### The values of a file -/

/-- The scalars that a file gives to a member stand in that file and are meant for that member. -/
theorem Gives.scalars (h : s.catalog.Loaded) {file : FileId} {member value : NodeId}
    (hg : s.Gives file member value) :
    ∃ m k, s.catalog.content? member = some (.member m) ∧ s.catalog.kind? value = some k ∧
      k.isValue = true ∧
      ∀ v ∈ s.catalog.scalarsOf value, v.file = file ∧ s.memberAt? v = some member := by
  cases hg with
  | @default _ _ m hfile hm hv =>
    obtain ⟨hparent, k, hk, hvalue⟩ := h.isValue_of_default? hm hv
    refine ⟨m, k, hm, hk, hvalue, fun v hmem ↦ ?_⟩
    have howner := h.valueOwner?_of_parent hparent (Catalog.kind?_of_content? hm) (.inl rfl)
    obtain ⟨hsame, hfile'⟩ := h.valueOwner?_of_mem_scalarsOf hmem
    exact ⟨hfile'.trans ((Catalog.file_of_parent? hparent).symm.trans hfile),
      memberAt?_of_default (hsame.trans howner) hm⟩
  | @assigned a _ _ r hfile ha ht hv =>
    obtain ⟨v', k, hv', hparent, hk, hvalue⟩ := h.exists_assigned ha
    obtain rfl : value = v' := Option.some.inj (hv.symm.trans hv')
    have htarget := targetAt?_eq_some_iff.2 ht
    obtain ⟨-, -, -, -, -, -, m, hm⟩ := exists_member_of_assignment h ha htarget
    refine ⟨m, k, hm, hk, hvalue, fun v hmem ↦ ?_⟩
    have howner := h.valueOwner?_of_parent hparent (Catalog.kind?_of_content? ha) (.inr rfl)
    obtain ⟨hsame, hfile'⟩ := h.valueOwner?_of_mem_scalarsOf hmem
    refine ⟨hfile'.trans ((Catalog.file_of_parent? hparent).symm.trans hfile), ?_⟩
    rw [memberAt?_of_assigned (hsame.trans howner) ha, htarget]

/-- Nothing is found in a value that a file gives to a member exactly if it fits, provided that no
reference of the file is faulty. -/
theorem valueFindings_eq_nil_iff_of_gives (h : s.catalog.Loaded) {file : FileId}
    (hlinked : ∀ n : NodeId, n.file = file → (s.resolutionAt n).isFault = false)
    {member value : NodeId} {m : Member} (hg : s.Gives file member value)
    (hm : s.catalog.content? member = some (.member m)) :
    s.evaluate (s.valueFindings member value) = [] ↔ s.Fits member m value := by
  obtain ⟨-, k, -, hk, hvalue, hscalars⟩ := hg.scalars h
  refine valueFindings_eq_nil_iff h hm hk hvalue fun v hv ↦ ?_
  obtain ⟨hfile, hbound⟩ := hscalars v hv
  exact ⟨hbound, hlinked v hfile⟩

end Snapshot

end Schemata
