import Schemata.Proofs.ValueNodes
import Schemata.Proofs.Values

/-!
# What is found in an array

An array that is meant for a member is checked in two ways, whatever the type of the member is and
whether or not it holds arrays. Its size has to lie within the bounds of the member, as the settings
read them. And if the values of the member are unique, each element that has an earlier one of the
same identity is a finding. Identity (`Snapshot.Identical`) is decided by the value itself, save
that the two zeros are one value, and for a reference by the node to which it comes, in whatever
words. A reference that does not come to one node has no identity, so that it takes no part in the
comparison (`Snapshot.elements_reported`).
-/

namespace Schemata

namespace Snapshot

section Classes

variable {classes : Text.IdentifierClasses}

variable {s : Snapshot} {n member value array : NodeId} {x : Diagnostic}

/-! ### Identity -/

/-- Whether two elements have the same identity. -/
inductive Identical (s : Snapshot) (a b : NodeId) : Prop
  | boolean {z : Bool} (ha : s.catalog.content? a = some (.value (.boolean z)))
      (hb : s.catalog.content? b = some (.value (.boolean z)))
  | integer {z : Int64} (ha : s.catalog.content? a = some (.value (.integer z)))
      (hb : s.catalog.content? b = some (.value (.integer z)))
  | string {z : String} (ha : s.catalog.content? a = some (.value (.string z)))
      (hb : s.catalog.content? b = some (.value (.string z)))
  | zero {z z' : Binary64} (ha : s.catalog.content? a = some (.value (.float z)))
      (hb : s.catalog.content? b = some (.value (.float z'))) (hz : z.isZero = true)
      (hz' : z'.isZero = true)
  | float {z z' : Binary64} (ha : s.catalog.content? a = some (.value (.float z)))
      (hb : s.catalog.content? b = some (.value (.float z'))) (hbits : z.bits = z'.bits)
  | literal {r r' : Reference} {t : NodeId}
      (ha : s.catalog.content? a = some (.value (.literal r)))
      (hb : s.catalog.content? b = some (.value (.literal r')))
      (hta : s.resolutionAt a = .found t) (htb : s.resolutionAt b = .found t)
  | contained {r r' : Reference} {t : NodeId}
      (ha : s.catalog.content? a = some (.value (.contained r)))
      (hb : s.catalog.content? b = some (.value (.contained r')))
      (hta : s.resolutionAt a = .found t) (htb : s.resolutionAt b = .found t)

/-- A literal and a contained value do not come to one node. -/
theorem not_literal_and_contained (h : s.catalog.Loaded) {a b t : NodeId} {r r' : Reference}
    (ha : s.catalog.content? a = some (.value (.literal r)))
    (hb : s.catalog.content? b = some (.value (.contained r')))
    (hta : s.resolutionAt a = .found t) (htb : s.resolutionAt b = .found t) : False := by
  obtain ⟨-, -, -, -, -, -, -, -, name, hliteral⟩ :=
    exists_literal_of_literal h ha (targetAt?_eq_some_iff.2 hta)
  obtain ⟨name', id, hentity⟩ := exists_entity_of_contained hb (targetAt?_eq_some_iff.2 htb)
  cases hliteral.symm.trans hentity

theorem Identical.sameValue {a b : NodeId} (hab : s.Identical a b) : s.SameValue a b := by
  cases hab with
  | boolean ha hb => exact .boolean ha hb
  | integer ha hb => exact .integer ha hb
  | string ha hb => exact .string ha hb
  | zero ha hb hz hz' => exact .float ha hb (.inr ⟨hz, hz'⟩)
  | float ha hb hbits => exact .float ha hb (.inl hbits)
  | literal ha hb hta htb => exact .reference ha hb hta htb
  | contained ha hb hta htb => exact .reference ha hb hta htb

/-- Elements are the same value exactly if they have the same identity. -/
theorem identical_iff_sameValue (h : s.catalog.Loaded) {a b : NodeId} :
    s.Identical a b ↔ s.SameValue a b := by
  refine ⟨Identical.sameValue, fun hsame ↦ ?_⟩
  cases hsame with
  | boolean ha hb => exact .boolean ha hb
  | integer ha hb => exact .integer ha hb
  | string ha hb => exact .string ha hb
  | float ha hb hxy =>
    rcases hxy with hbits | ⟨hz, hz'⟩
    · exact .float ha hb hbits
    · exact .zero ha hb hz hz'
  | @reference x y t ha hb hta htb =>
    -- only references come to a node
    have hreference {n : NodeId} {v : Scalar Reference}
        (hv : s.catalog.content? n = some (.value v))
        (ht : s.resolutionAt n = .found t) : (∃ r, v = .literal r) ∨ ∃ r, v = .contained r := by
      cases v with
      | literal r => exact .inl ⟨r, rfl⟩
      | contained r => exact .inr ⟨r, rfl⟩
      | _ =>
        rw [resolutionAt_of_no_reference (by rw [hv]; rfl)] at ht
        cases ht
    obtain ⟨r, rfl⟩ | ⟨r, rfl⟩ := hreference ha hta
    · obtain ⟨r', rfl⟩ | ⟨r', rfl⟩ := hreference hb htb
      · exact .literal ha hb hta htb
      · exact (not_literal_and_contained h ha hb hta htb).elim
    · obtain ⟨r', rfl⟩ | ⟨r', rfl⟩ := hreference hb htb
      · exact (not_literal_and_contained h hb ha htb hta).elim
      · exact .contained ha hb hta htb

theorem Identical.symm {a b : NodeId} (hab : s.Identical a b) : s.Identical b a := by
  cases hab with
  | boolean ha hb => exact .boolean hb ha
  | integer ha hb => exact .integer hb ha
  | string ha hb => exact .string hb ha
  | zero ha hb hz hz' => exact .zero hb ha hz' hz
  | float ha hb hbits => exact .float hb ha hbits.symm
  | literal ha hb hta htb => exact .literal hb ha htb hta
  | contained ha hb hta htb => exact .contained hb ha htb hta

/-- A reference has an identity only if it comes to a node. -/
theorem Identical.exists_found {a b : NodeId} (hab : s.Identical a b) {v : Scalar Reference}
    {p : Site × Reference} (ha : s.catalog.content? a = some (.value v))
    (hv : v.reference? = some p) : ∃ t, s.resolutionAt a = .found t := by
  cases hab with
  | literal _ _ hta _ | contained _ _ hta _ => exact ⟨_, hta⟩
  | boolean ha' _ | integer ha' _ | string ha' _ | zero ha' _ _ _ | float ha' _ _ =>
    cases ha.symm.trans ha'
    cases hv

/-! ### Findings by their code -/

theorem code_of_mem_sizeFindings {m : Member} (hx : x ∈ s.sizeFindings m array) :
    x.code = some "array-size" := by
  obtain ⟨p, -, hp, rfl⟩ := exists_finding_of_mem_sizeFindings hx
  exact congrArg some hp

theorem code_of_mem_uniquenessFindings (hx : x ∈ s.evaluate (s.uniquenessFindings array)) :
    x.code = some "array-not-unique" := by
  obtain ⟨element, -, -, -, rfl⟩ := exists_finding_of_mem_uniquenessFindings hx
  rfl

section Array

variable {m : Member} (hm : s.catalog.content? member = some (.member m))
  (hc : s.catalog.content? array = some .array)
include hm hc

theorem evaluate_valueFindings_array :
    s.evaluate (s.valueFindings member array) =
      s.evaluate (s.typeFindings member array) ++ (s.sizeFindings m array ++
        if m.unique then s.evaluate (s.uniquenessFindings array) else []) := by
  have hmember : s.catalog.member? member = some m := by rw [Catalog.member?, hm]
  rw [evaluate_valueFindings, evaluate_arrayFindings hmember hc]

/-- Of what is found in an array, the check of sizes finds what has its code. -/
theorem filter_arraySize :
    (s.evaluate (s.valueFindings member array)).filter (·.code == some "array-size") =
      s.sizeFindings m array := by
  have htypes : (s.evaluate (s.typeFindings member array)).filter
      (·.code == some "array-size") = [] :=
    List.filter_eq_nil_iff.2 fun x hx ↦ by simp [code_of_mem_typeFindings hx]
  have hunique : (if m.unique then s.evaluate (s.uniquenessFindings array) else []).filter
      (·.code == some "array-size") = [] := by
    refine List.filter_eq_nil_iff.2 fun x hx ↦ ?_
    split at hx
    · simp [code_of_mem_uniquenessFindings hx]
    · cases hx
  rw [evaluate_valueFindings_array hm hc, List.filter_append, List.filter_append, htypes, hunique,
    List.nil_append, List.append_nil]
  exact List.filter_eq_self.2 fun x hx ↦ by simp [code_of_mem_sizeFindings hx]

/-- Of what is found in an array, the check of elements finds what has its code. -/
theorem filter_arrayNotUnique :
    (s.evaluate (s.valueFindings member array)).filter (·.code == some "array-not-unique") =
      if m.unique then s.evaluate (s.uniquenessFindings array) else [] := by
  have htypes : (s.evaluate (s.typeFindings member array)).filter
      (·.code == some "array-not-unique") = [] :=
    List.filter_eq_nil_iff.2 fun x hx ↦ by simp [code_of_mem_typeFindings hx]
  have hsize : (s.sizeFindings m array).filter (·.code == some "array-not-unique") = [] :=
    List.filter_eq_nil_iff.2 fun x hx ↦ by simp [code_of_mem_sizeFindings hx]
  rw [evaluate_valueFindings_array hm hc, List.filter_append, List.filter_append, htypes, hsize,
    List.nil_append, List.nil_append, List.filter_eq_self]
  intro x hx
  split at hx
  · simp [code_of_mem_uniquenessFindings hx]
  · cases hx

end Array

/-! ### Elements that repeat others -/

/-- The repeated elements of an array are those with an earlier element of the same identity, told
in their order. -/
theorem exists_repeated (h : s.catalog.Loaded) (hc : s.catalog.content? array = some .array) :
    ∃ repeated : List NodeId, repeated.Sublist (s.catalog.children array) ∧
      (∀ e, e ∈ repeated ↔
        ∃ e', [e', e].Sublist (s.catalog.children array) ∧ s.Identical e' e) ∧
      s.evaluate (s.uniquenessFindings array) = repeated.map (s.finding .arrayNotUnique) := by
  have hsublist := map_repeats_filterMap_sublist (fun e ↦ s.evaluate (s.elementKey? e))
    (fun e _ ↦ e) (s.catalog.children array) id fun _ _ ↦ rfl
  refine ⟨_, hsublist, fun e ↦ ?_, ?_⟩
  · have hrepeats : e ∈ (repeats ((s.catalog.children array).filterMap fun e ↦
        (s.evaluate (s.elementKey? e)).map fun k ↦ (k, e))).map (fun p ↦ id p.1) ↔
          ∃ first, RepeatsFirst (fun e ↦ s.evaluate (s.elementKey? e)) (s.catalog.children array)
            e first := by
      simp only [List.mem_map, mem_repeats_filterMap_iff (fun e ↦ s.evaluate (s.elementKey? e))
        (fun e _ ↦ e) (s.catalog.children array)]
      constructor
      · rintro ⟨_, ⟨e, first, k, hrepeats, -, rfl⟩, rfl⟩
        exact ⟨first, hrepeats⟩
      · rintro ⟨first, hrepeats⟩
        obtain ⟨k, hk, -⟩ := hrepeats.key_eq
        exact ⟨_, ⟨e, first, k, hrepeats, hk, rfl⟩, rfl⟩
    rw [hrepeats, exists_repeatsFirst_iff]
    -- two elements have the same key exactly if they have the same identity
    refine exists_congr fun e' ↦ ?_
    rw [exists_and_left]
    refine and_congr_right fun hpair ↦ ?_
    obtain ⟨v', hv'⟩ := h.value_of_mem_children hc (hpair.mem (List.mem_pair.2 (.inl rfl)))
    obtain ⟨v, hv⟩ := h.value_of_mem_children hc (hpair.mem (List.mem_pair.2 (.inr rfl)))
    rw [identical_iff_sameValue h, sameValue_iff hv' hv]
  · rw [evaluate_uniquenessFindings, List.map_map]
    rfl

/-- **Repeated elements and the size of an array are reported.** Of an array that a file gives to a
member with unique values, the elements that have an earlier one of the same identity are reported,
in their order, and no others; of other members none are. The size is reported once, at the array,
if it is outside the bounds. A reference that does not come to one node is not reported and has the
identity of no element. -/
theorem elements_reported (s : Snapshot) (h : s.catalog.Loaded) {file : FileId}
    {member array : NodeId} {m : Member} (hg : s.Gives file member array)
    (hm : s.catalog.content? member = some (.member m))
    (hc : s.catalog.content? array = some .array) :
    (s.catalog.children array).Nodup ∧
    (∃ repeated : List NodeId, repeated.Sublist (s.catalog.children array) ∧
      (∀ e, e ∈ repeated ↔ m.unique = true ∧
        ∃ e', [e', e].Sublist (s.catalog.children array) ∧ s.Identical e' e) ∧
      (s.evaluate (s.check file)).filter (fun x ↦ x.code == some "array-not-unique" &&
          decide (x.node ∈ s.catalog.valueNodes array)) =
        repeated.map (s.finding .arrayNotUnique)) ∧
    (∀ least greatest, s.settings.arrayBounds.limits m.cardinality = (least, greatest) →
      (s.evaluate (s.check file)).filter (fun x ↦ x.code == some "array-size" &&
          decide (x.node ∈ s.catalog.valueNodes array)) =
        let size := (s.catalog.children array).length
        if size < least.toNat then [s.finding (.arrayTooSmall least size) array]
        else if greatest.toNat < size then [s.finding (.arrayTooLarge greatest size) array]
        else []) ∧
    ∀ e ∈ s.catalog.children array, ∀ v p, s.catalog.content? e = some (.value v) →
      v.reference? = some p → (∀ t, s.resolutionAt e ≠ .found t) →
        (∀ x ∈ s.evaluate (s.check file), x.code = some "array-not-unique" → x.node ≠ e) ∧
        ∀ e', ¬ s.Identical e e' ∧ ¬ s.Identical e' e := by
  -- the elements that are reported: none, if they need not be unique
  have hreported : ∃ repeated : List NodeId, repeated.Sublist (s.catalog.children array) ∧
      (∀ e, e ∈ repeated ↔ m.unique = true ∧
        ∃ e', [e', e].Sublist (s.catalog.children array) ∧ s.Identical e' e) ∧
      (s.evaluate (s.check file)).filter (fun x ↦ x.code == some "array-not-unique" &&
          decide (x.node ∈ s.catalog.valueNodes array)) =
        repeated.map (s.finding .arrayNotUnique) := by
    rw [filter_code_check_of_gives h hg (by decide) (by decide), filter_arrayNotUnique hm hc]
    cases m.unique with
    | false => exact ⟨[], List.nil_sublist _, by simp, rfl⟩
    | true =>
      obtain ⟨repeated, hsublist, hmem, heq⟩ := exists_repeated h hc
      exact ⟨repeated, hsublist, by simpa using hmem, heq⟩
  refine ⟨h.children_nodup array, hreported, fun least greatest hlimits ↦ ?_,
    fun e he v p hv hp hnone ↦ ?_⟩
  · rw [filter_code_check_of_gives h hg (by decide) (by decide), filter_arraySize hm hc,
      sizeFindings, hlimits]
  · have hidentical (e' : NodeId) : ¬ s.Identical e e' := fun hab ↦ by
      obtain ⟨t, ht⟩ := hab.exists_found hv hp
      exact hnone t ht
    refine ⟨fun x hx hcode hnode ↦ ?_, fun e' ↦ ⟨hidentical e', fun hab ↦ hidentical e' hab.symm⟩⟩
    obtain ⟨repeated, -, hmem, heq⟩ := hreported
    have hx' : x ∈ repeated.map (s.finding .arrayNotUnique) := by
      rw [← heq, List.mem_filter]
      exact ⟨hx, by simp [hcode, hnode, Catalog.valueNodes, he]⟩
    obtain ⟨u, hu, rfl⟩ := List.mem_map.1 hx'
    obtain rfl : u = e := hnode
    obtain ⟨-, e', -, hab⟩ := (hmem u).1 hu
    exact hidentical e' hab.symm

end Classes

/-- Two documents. The second imports the entity of the first under two names. It has a member of
unique numbers at place 5, at most three, whose default is the array at place 7: the two zeros at 8
and 9, the entity by its two names at 10 and 11, and a name that nothing has at 12 and 13. -/
def ofElements : Snapshot :=
  .ofDocuments
    [.drafting ⟨0⟩ "lib" [.declare (.entity ⟨"E", none, []⟩)],
    .drafting ⟨1⟩ "app" [.declare (.imports ⟨"lib", [⟨"E", none⟩, ⟨"E", some "G"⟩]⟩),
      .declare (.entity ⟨"C", none, [⟨"x", .attribute, .float, ⟨none, some 3, true⟩, true, false,
        some (.array ([.float ⟨0⟩, .float ⟨0x8000000000000000⟩, .contained "E", .contained "G",
          .contained "F", .contained "F"].map .scalar))⟩]⟩)]]

theorem loaded_ofElements : ofElements.catalog.Loaded := by
  refine .ofDocuments fun d hd ↦ ?_
  simp only [List.mem_cons, List.not_mem_nil, or_false] at hd
  rcases hd with rfl | rfl <;> exact Document.drafted_drafting _ _ (by decide)

/-- There the second zero and the second name of the entity are reported, and the size. The name
that nothing has is not, although it occurs twice. -/
theorem elements_reported_ofElements :
    ofElements.catalog.Loaded ∧ ofElements.Gives ⟨1⟩ ⟨⟨1⟩, 5⟩ ⟨⟨1⟩, 7⟩ ∧
      (ofElements.evaluate (ofElements.check ⟨1⟩)).filter (fun x ↦ x.code == some "array-size" &&
          decide (x.node ∈ ofElements.catalog.valueNodes ⟨⟨1⟩, 7⟩)) =
        [ofElements.finding (.arrayTooLarge 3 6) ⟨⟨1⟩, 7⟩] ∧
      ofElements.finding .arrayNotUnique ⟨⟨1⟩, 9⟩ ∈ ofElements.evaluate (ofElements.check ⟨1⟩) ∧
      ofElements.finding .arrayNotUnique ⟨⟨1⟩, 11⟩ ∈ ofElements.evaluate (ofElements.check ⟨1⟩) ∧
      ∀ x ∈ ofElements.evaluate (ofElements.check ⟨1⟩),
        x.code = some "array-not-unique" → x.node ≠ ⟨⟨1⟩, 13⟩ := by
  have hgives : ofElements.Gives ⟨1⟩ ⟨⟨1⟩, 5⟩ ⟨⟨1⟩, 7⟩ := .default rfl rfl rfl
  obtain ⟨-, ⟨repeated, -, hmem, heq⟩, hsize, hunresolved⟩ :=
    elements_reported ofElements loaded_ofElements hgives rfl rfl
  -- what repeats another element is among the findings
  have hfound {e : NodeId} (he : e ∈ repeated) :
      ofElements.finding .arrayNotUnique e ∈ ofElements.evaluate (ofElements.check ⟨1⟩) := by
    have hx := heq ▸ List.mem_map_of_mem (f := ofElements.finding .arrayNotUnique) he
    exact (List.mem_filter.1 hx).1
  have hzeros : ofElements.Identical ⟨⟨1⟩, 8⟩ ⟨⟨1⟩, 9⟩ := .zero rfl rfl (by decide) (by decide)
  have hnames : ofElements.Identical ⟨⟨1⟩, 10⟩ ⟨⟨1⟩, 11⟩ :=
    .contained rfl rfl (t := ⟨⟨0⟩, 1⟩) (by decide) (by decide)
  have hnone : ofElements.resolutionAt ⟨⟨1⟩, 13⟩ = .notFound := by decide
  exact ⟨loaded_ofElements, hgives, hsize 0 3 rfl,
    hfound ((hmem _).2 ⟨rfl, _, by decide, hzeros⟩),
    hfound ((hmem _).2 ⟨rfl, _, by decide, hnames⟩),
    (hunresolved ⟨⟨1⟩, 13⟩ (by decide) _ _ rfl rfl (by simp [hnone])).1⟩

end Snapshot

end Schemata
