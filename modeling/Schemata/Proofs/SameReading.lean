import Schemata.Proofs.Values

/-!
# Nodes that read the same

Two nodes of one file read the same (`Snapshot.ReadsAs`) if they have the same content, up to the
ranges of references, and their references come to the same. What is asked of a value rests on that:
its type, its key among the elements of an array, and what is found at its reference.

Values that are meant for one member read the same as soon as they are written the same
(`Snapshot.readsAs_of_memberAt?`). A literal sees what its member lets it see, and every other
reference in a value sees the same classifiers throughout the file.
-/

namespace Schemata

variable {classes : Text.IdentifierClasses}

/-- Whether two findings say the same, each at one of two nodes that are related. -/
structure Diagnostic.Corresponds (C : NodeId → NodeId → Prop) (x y : Diagnostic) : Prop where
  node : C x.node y.node
  severity : x.severity = y.severity
  code : x.code = y.code
  message : x.message = y.message
  payload : x.payload = y.payload
  related : x.related = y.related

/-- One problem is reported alike wherever it is reported. -/
theorem Problem.corresponds_report {C : NodeId → NodeId → Prop} {a b : NodeId} (hC : C a b)
    (p : Problem) (range range' : Range) (related : List Related) :
    (p.report a range related).Corresponds C (p.report b range' related) :=
  ⟨hC, rfl, rfl, rfl, rfl, rfl⟩

/-- Scalars that differ in ranges only are the same constant, or refer by the same text. -/
theorem Scalar.cases_of_map_eq {v v' : Scalar Reference}
    (h : v.map (·.text) = v'.map (·.text)) :
    (v = v' ∧ v.reference? = none) ∨
      (∃ r r', v = .literal r ∧ v' = .literal r' ∧ r.text = r'.text) ∨
      ∃ r r', v = .contained r ∧ v' = .contained r' ∧ r.text = r'.text := by
  cases v <;> cases v' <;> simp_all [Scalar.map, Scalar.reference?]

namespace Catalog

variable {c : Catalog} {a b : NodeId}

/-- The content of a node, with its reference, if it has one, as bare text. -/
def bareContent? (c : Catalog) (n : NodeId) : Option (Content String) :=
  (c.content? n).map (·.map (·.text))

theorem exists_value_of_bareContent?_eq (h : c.bareContent? a = c.bareContent? b)
    {v : Scalar Reference} (ha : c.content? a = some (.value v)) :
    ∃ v', c.content? b = some (.value v') ∧ v.map (·.text) = v'.map (·.text) := by
  rw [bareContent?, bareContent?, ha, Option.map_some] at h
  obtain ⟨content, hb, heq⟩ := Option.map_eq_some_iff.1 h.symm
  cases content <;> simp only [Content.map, Content.value.injEq, reduceCtorEq] at heq
  exact ⟨_, hb, heq.symm⟩

theorem array_of_bareContent?_eq (h : c.bareContent? a = c.bareContent? b)
    (ha : c.content? a = some .array) : c.content? b = some .array := by
  rw [bareContent?, bareContent?, ha, Option.map_some] at h
  obtain ⟨content, hb, heq⟩ := Option.map_eq_some_iff.1 h.symm
  cases content <;> simp only [Content.map, reduceCtorEq] at heq
  exact hb

end Catalog

namespace Snapshot

variable {s : Snapshot} {a b : NodeId}

variable (s) in
/-- Whether two nodes of a file have the same content, up to the range of a reference, and come to
the same. -/
structure ReadsAs (a b : NodeId) : Prop where
  file : a.file = b.file
  content : s.catalog.bareContent? a = s.catalog.bareContent? b
  resolution : s.resolutionAt a = s.resolutionAt b

theorem ReadsAs.targetAt?_eq (hr : s.ReadsAs a b) : s.targetAt? a = s.targetAt? b := by
  rw [targetAt?, targetAt?, hr.resolution]

/-! ### Values that are meant for one member -/

/-- A literal sees what the member for which it is meant lets it see. -/
theorem candidatesAt_literal_congr {r r' : Reference}
    (ha : s.catalog.content? a = some (.value (.literal r)))
    (hb : s.catalog.content? b = some (.value (.literal r')))
    (hmember : s.memberAt? a = s.memberAt? b) : s.candidatesAt a = s.candidatesAt b := by
  rw [memberAt?, memberAt?, evaluate, evaluate] at hmember
  simp only [candidatesAt, evaluate, candidates, ha, hb, Content.reference?, Scalar.reference?,
    Option.bind_some, literalScope?, Query.eval_bind, hmember]

/-- What is written the same and meant for one member reads the same. -/
theorem readsAs_of_memberAt? (h : s.catalog.Loaded) (hfile : a.file = b.file)
    (hcontent : s.catalog.bareContent? a = s.catalog.bareContent? b) {k : Kind}
    (hk : s.catalog.kind? a = some k) (hvalue : k.isValue = true)
    (hmember : s.memberAt? a = s.memberAt? b) : s.ReadsAs a b := by
  refine ⟨hfile, hcontent, ?_⟩
  obtain ⟨content, ha, rfl⟩ := Catalog.exists_content?_of_kind? hk
  cases content with
  | array =>
    have hb := Catalog.array_of_bareContent?_eq hcontent ha
    rw [resolutionAt_of_no_reference (by rw [ha]; rfl),
      resolutionAt_of_no_reference (by rw [hb]; rfl)]
  | value v =>
    obtain ⟨v', hb, heq⟩ := Catalog.exists_value_of_bareContent?_eq hcontent ha
    obtain ⟨rfl, hplain⟩ | ⟨r, r', rfl, rfl, htext⟩ | ⟨r, r', rfl, rfl, htext⟩ :=
      Scalar.cases_of_map_eq heq
    · rw [resolutionAt_of_no_reference (by rw [ha]; exact hplain),
        resolutionAt_of_no_reference (by rw [hb]; exact hplain)]
    · rw [resolutionAt_of_reference h ha rfl, resolutionAt_of_reference h hb rfl,
        candidatesAt_literal_congr ha hb hmember, htext]
    · rw [resolutionAt_of_reference h ha rfl, resolutionAt_of_reference h hb rfl,
        candidatesAt_contained ha, candidatesAt_contained hb, hfile, htext]
  | _ => cases hvalue

/-! ### What is asked of a value -/

/-- Scalars that read the same have the same type. -/
theorem ReadsAs.typeAt?_eq (h : s.catalog.Loaded) (hr : s.ReadsAs a b) {v : Scalar Reference}
    (ha : s.catalog.content? a = some (.value v)) : s.typeAt? a = s.typeAt? b := by
  obtain ⟨v', hb, heq⟩ := Catalog.exists_value_of_bareContent?_eq hr.content ha
  obtain ⟨rfl, hplain⟩ | ⟨r, r', rfl, rfl, -⟩ | ⟨r, r', rfl, rfl, -⟩ := Scalar.cases_of_map_eq heq
  · rw [Snapshot.typeAt?_eq h a, Snapshot.typeAt?_eq h b, infer, infer, ha, hb]
    cases v <;> first | rfl | cases hplain
  · rw [typeAt?_literal h ha, typeAt?_literal h hb, hr.targetAt?_eq]
  · rw [typeAt?_contained h ha, typeAt?_contained h hb, hr.targetAt?_eq]

/-- And are called the same in messages. -/
theorem ReadsAs.foundName_eq (h : s.catalog.Loaded) (hr : s.ReadsAs a b) {v : Scalar Reference}
    (ha : s.catalog.content? a = some (.value v)) :
    s.evaluate (s.foundName a) = s.evaluate (s.foundName b) := by
  obtain ⟨v', hb, heq⟩ := Catalog.exists_value_of_bareContent?_eq hr.content ha
  rw [foundName, foundName, evaluate, evaluate, Query.eval_bind, Query.eval_bind, eval_dataType,
    eval_dataType, hr.typeAt?_eq h ha, ha, hb]
  obtain ⟨rfl, -⟩ | ⟨r, r', rfl, rfl, -⟩ | ⟨r, r', rfl, rfl, -⟩ := Scalar.cases_of_map_eq heq
  · rfl
  · rfl
  · rfl

/-- And are the same value among the elements of an array. -/
theorem ReadsAs.elementKey?_eq (hr : s.ReadsAs a b) {v : Scalar Reference}
    (ha : s.catalog.content? a = some (.value v)) :
    s.evaluate (s.elementKey? a) = s.evaluate (s.elementKey? b) := by
  obtain ⟨v', hb, heq⟩ := Catalog.exists_value_of_bareContent?_eq hr.content ha
  rw [elementKey?, elementKey?, ha, hb]
  obtain ⟨rfl, hplain⟩ | ⟨r, r', rfl, rfl, -⟩ | ⟨r, r', rfl, rfl, -⟩ := Scalar.cases_of_map_eq heq
  · cases v <;> first | rfl | cases hplain
  · simp only [evaluate, Query.eval_bind, Query.eval_pure, eval_target?, hr.targetAt?_eq]
  · simp only [evaluate, Query.eval_bind, Query.eval_pure, eval_target?, hr.targetAt?_eq]

/-- What is found at references that read the same corresponds. -/
theorem ReadsAs.forall₂_referenceFindings (hr : s.ReadsAs a b) {C : NodeId → NodeId → Prop}
    (hC : C a b) :
    List.Forall₂ (Diagnostic.Corresponds C) (s.evaluate (s.referenceFindings a))
      (s.evaluate (s.referenceFindings b)) := by
  have hcontent := hr.content
  rw [Catalog.bareContent?, Catalog.bareContent?] at hcontent
  cases hfault : (s.resolutionAt a).isFault with
  | false =>
    rw [referenceFindings_eq_nil hfault, referenceFindings_eq_nil (hr.resolution ▸ hfault)]
    exact .nil
  | true =>
    obtain ⟨content, site, r, ha, hsite⟩ := HasReference.of_isFault hfault
    rw [ha, Option.map_some] at hcontent
    obtain ⟨content', hb, heq⟩ := Option.map_eq_some_iff.1 hcontent.symm
    -- the labels and the references differ in ranges only
    have hlabel : content.label = content'.label := by
      rw [← Content.label_map (·.text) content, ← heq, Content.label_map]
    have hreference := Content.reference?_map (·.text) content'
    rw [heq, Content.reference?_map, hsite, Option.map_some] at hreference
    obtain ⟨⟨site', r'⟩, hsite', heq⟩ := Option.map_eq_some_iff.1 hreference.symm
    have htext : r'.text = r.text := (Prod.mk.inj heq).2
    obtain rfl : site' = site := (Prod.mk.inj heq).1
    simp only [referenceFindings, ha, hb, hsite, hsite', evaluate, Query.eval_bind, eval_resolution,
      hr.resolution, hlabel, htext, hr.file]
    cases s.resolutionAt b with
    | found t | blocked => exact .nil
    | notFound => exact .cons (Problem.corresponds_report hC _ _ _ _) .nil
    | ambiguous ts => exact .cons (Problem.corresponds_report hC _ _ _ _) .nil

end Snapshot

end Schemata
