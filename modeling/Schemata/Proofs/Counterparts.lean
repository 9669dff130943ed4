import Schemata.Document.Reading
import Schemata.Proofs.Mismatches
import Schemata.Proofs.SameReading
import Schemata.Proofs.ValueNodes

/-!
# Values that are judged alike

A member is given values in two positions, as its default and by assignments. The nodes of a value
are looked up from where they stand, so one and the same value is reached along different ways.
Still it is judged alike wherever a file gives it to the member (`Snapshot.check_corresponds`): the
nodes of both values read the same, and what a check finds at them corresponds one to one.

The steps of a check of a value are taken one after the other. Each carries a relation of nodes that
read the same over to a relation of findings.
-/

namespace Schemata

section Classes

variable {classes : Text.IdentifierClasses}

/-- If a reading of some elements succeeds, it succeeds for each. -/
theorem map_eq_of_mapM_eq_some {α β : Type} {f : α → Option β} {xs : List α} {ys : List β}
    (h : xs.mapM f = some ys) : xs.map f = ys.map some := by
  induction xs generalizing ys with
  | nil =>
    obtain rfl : [] = ys := Option.some.inj h
    rfl
  | cons x xs ih =>
    rw [List.mapM_cons] at h
    obtain ⟨y, hx, h⟩ := Option.bind_eq_some_iff.1 h
    obtain ⟨ys', hxs, h⟩ := Option.bind_eq_some_iff.1 h
    obtain rfl : y :: ys' = ys := Option.some.inj h
    rw [List.map_cons, List.map_cons, hx, ih hxs]

/-! ### Values that are written the same -/

namespace Document

variable {d : Document} {n : LocalId}

theorem writtenElement?_eq_some_iff {w : Value} :
    d.writtenElement? n = some w ↔ ∃ v, d.bareContent? n = some (.value v) ∧ w = .scalar v := by
  rw [writtenElement?]
  split
  · rename_i v hv
    simp [hv, eq_comm]
  · rename_i hne
    simp only [reduceCtorEq, false_iff, not_exists, not_and]
    intro v hv
    exact absurd hv (hne v)

theorem writtenValue?_eq_scalar_iff {v : Scalar String} :
    d.writtenValue? n = some (.scalar v) ↔ d.bareContent? n = some (.value v) := by
  rw [writtenValue?]
  split
  · rename_i v' hv
    simp [hv]
  · rename_i hv
    simp [hv]
  · rename_i hne _
    have hv : d.bareContent? n ≠ some (.value v) := hne v
    simp [hv]

theorem writtenValue?_eq_array_iff {ws : List Value} :
    d.writtenValue? n = some (.array ws) ↔
      d.bareContent? n = some .array ∧ (d.children n).mapM d.writtenElement? = some ws := by
  rw [writtenValue?]
  split
  · rename_i v' hv
    simp [hv]
  · rename_i hv
    simp [hv]
  · rename_i hne
    have harray : d.bareContent? n ≠ some .array := hne
    simp [harray]

/-- Rows of elements that are written the same have the same contents. -/
theorem forall₂_bareContent?_of_mapM_eq {is js : List LocalId} {ws : List Value}
    (his : is.mapM d.writtenElement? = some ws) (hjs : js.mapM d.writtenElement? = some ws) :
    List.Forall₂ (fun i j ↦ d.bareContent? i = d.bareContent? j) is js := by
  have hsame : List.Forall₂ (fun i j ↦ d.writtenElement? i = d.writtenElement? j) is js := by
    rw [← List.forall₂_map_right_iff, ← List.forall₂_map_left_iff, List.forall₂_eq_eq_eq,
      map_eq_of_mapM_eq_some his, map_eq_of_mapM_eq_some hjs]
  have hread : ∀ i ∈ is, ∃ w, d.writtenElement? i = some w := by
    intro i hi
    have hmem : d.writtenElement? i ∈ ws.map some :=
      map_eq_of_mapM_eq_some his ▸ List.mem_map_of_mem hi
    obtain ⟨w, -, hw⟩ := List.mem_map.1 hmem
    exact ⟨w, hw.symm⟩
  refine ((List.forall₂_and_left _ _).2 ⟨hread, hsame⟩).imp ?_
  rintro i j ⟨⟨w, hi⟩, hij⟩
  obtain ⟨v, hvi, rfl⟩ := writtenElement?_eq_some_iff.1 hi
  obtain ⟨v', hvj, heq⟩ := writtenElement?_eq_some_iff.1 (hij ▸ hi)
  obtain rfl : v = v' := Value.scalar.inj heq
  rw [hvi, hvj]

end Document

namespace Catalog

variable {c : Catalog} {n a b : NodeId} {d : Document}

theorem bareContent?_eq (hd : c.document? n.file = some d) :
    c.bareContent? n = d.bareContent? n.index := by
  rw [bareContent?, content?_eq hd, Document.bareContent?]

theorem exists_content?_of_bareContent? {bare : Content String}
    (hn : c.bareContent? n = some bare) :
    ∃ content, c.content? n = some content ∧ content.map (·.text) = bare :=
  Option.map_eq_some_iff.1 hn

/-- The nodes of values that are written the same have the same contents, one by one. -/
theorem Loaded.forall₂_bareContent? (h : c.Loaded) (ha : c.document? a.file = some d)
    (hb : c.document? b.file = some d) {w : Value} (hwa : d.writtenValue? a.index = some w)
    (hwb : d.writtenValue? b.index = some w) :
    List.Forall₂ (fun x y ↦ c.bareContent? x = c.bareContent? y) (c.valueNodes a)
      (c.valueNodes b) := by
  have hchildren {n : NodeId} {v : Scalar String} (hd : c.document? n.file = some d)
      (hn : d.bareContent? n.index = some (.value v)) : c.children n = [] := by
    rw [← bareContent?_eq hd] at hn
    obtain ⟨content, hc, heq⟩ := exists_content?_of_bareContent? hn
    cases content <;> simp only [Content.map, reduceCtorEq] at heq
    exact h.children_of_value hc
  cases w with
  | scalar v =>
    rw [Document.writtenValue?_eq_scalar_iff] at hwa hwb
    rw [valueNodes, valueNodes, hchildren ha hwa, hchildren hb hwb]
    refine .cons ?_ .nil
    rw [bareContent?_eq ha, bareContent?_eq hb, hwa, hwb]
  | array ws =>
    rw [Document.writtenValue?_eq_array_iff] at hwa hwb
    refine .cons ?_ ?_
    · rw [bareContent?_eq ha, bareContent?_eq hb, hwa.1, hwb.1]
    · rw [children_eq ha, children_eq hb, List.forall₂_map_left_iff, List.forall₂_map_right_iff]
      refine (Document.forall₂_bareContent?_of_mapM_eq hwa.2 hwb.2).imp fun i j hij ↦ ?_
      rw [bareContent?_eq (n := a.sibling i) ha, bareContent?_eq (n := b.sibling j) hb]
      exact hij

end Catalog

/-- Whether two mismatches say the same, each of one of two values that are related. -/
structure Mismatch.Corresponds (C : NodeId → NodeId → Prop) (m m' : Mismatch) :
    Prop where
  value : C m.value m'.value
  expected : m.expected = m'.expected
  found : m.found = m'.found

namespace Snapshot

variable {s : Snapshot} {a b : NodeId}

/-! ### What is found in them -/

section Related

variable {C : NodeId → NodeId → Prop} (hC : ∀ x y, C x y → s.ReadsAs x y)

theorem corresponds_finding (hab : C a b) (p : Problem) :
    (s.finding p a).Corresponds C (s.finding p b) :=
  p.corresponds_report hab _ _ _

include hC

theorem rel_scalarMismatch? (h : s.catalog.Loaded) (hab : C a b) {v : Scalar Reference}
    (ha : s.catalog.content? a = some (.value v)) (t : DataType) :
    Option.Rel (Mismatch.Corresponds C) (s.evaluate (s.scalarMismatch? t a))
      (s.evaluate (s.scalarMismatch? t b)) := by
  rw [evaluate_scalarMismatch?, evaluate_scalarMismatch?, (hC a b hab).typeAt?_eq h ha]
  cases s.typeAt? b with
  | none => exact .none
  | some found =>
    rw [Option.bind_some, Option.bind_some]
    split
    · exact .none
    · exact .some ⟨hab, rfl, rfl⟩

variable (hab : C a b) (hchildren : List.Forall₂ C (s.catalog.children a) (s.catalog.children b))
include hab hchildren

omit hC hab in
/-- The elements of corresponding arrays are scalars. -/
theorem forall₂_elements (h : s.catalog.Loaded) (ha : s.catalog.content? a = some .array) :
    List.Forall₂ (fun x y ↦ C x y ∧ ∃ v, s.catalog.content? x = some (.value v))
      (s.catalog.children a) (s.catalog.children b) := by
  have hvalues : ∀ x ∈ s.catalog.children a, ∃ v, s.catalog.content? x = some (.value v) :=
    fun x hx ↦ h.value_of_mem_children ha hx
  exact ((List.forall₂_and_left _ _).2 ⟨hvalues, hchildren⟩).imp fun x y hxy ↦ hxy.symm

/-- Where values differ from the type of a member, they differ alike. -/
theorem forall₂_mismatches (h : s.catalog.Loaded) {member : NodeId} {m : Member}
    (hm : s.catalog.content? member = some (.member m)) {k : Kind}
    (hk : s.catalog.kind? a = some k) (hvalue : k.isValue = true) :
    List.Forall₂ (Mismatch.Corresponds C) (s.evaluate (s.mismatches member a))
      (s.evaluate (s.mismatches member b)) := by
  have hcontent := (hC a b hab).content
  cases ht : s.evaluate (s.declaredType member) with
  | none =>
    rw [mismatches_of_untyped ht, mismatches_of_untyped ht]
    exact .nil
  | some t =>
    obtain ⟨content, ha, rfl⟩ := Catalog.exists_content?_of_kind? hk
    cases content with
    | array =>
      have hb := Catalog.array_of_bareContent?_eq hcontent ha
      rw [evaluate_mismatches hm ht ha, evaluate_mismatches hm ht hb]
      cases m.cardinality.isArray with
      | false => exact .cons ⟨hab, rfl, rfl⟩ .nil
      | true =>
        refine List.rel_filterMap ?_ (forall₂_elements hchildren h ha)
        rintro x y ⟨hxy, v, hv⟩
        exact rel_scalarMismatch? hC h hxy hv t
    | value v =>
      obtain ⟨v', hb, -⟩ := Catalog.exists_value_of_bareContent?_eq hcontent ha
      rw [evaluate_mismatches hm ht ha, evaluate_mismatches hm ht hb]
      cases m.cardinality.isArray with
      | false =>
        have hrel := rel_scalarMismatch? hC h hab ha t
        dsimp only
        generalize s.evaluate (s.scalarMismatch? t a) = x at hrel ⊢
        generalize s.evaluate (s.scalarMismatch? t b) = y at hrel ⊢
        cases hrel with
        | some hxy => exact .cons hxy .nil
        | none => exact .nil
      | true => exact .cons ⟨hab, rfl, (hC a b hab).foundName_eq h ha⟩ .nil
    | _ => cases hvalue

omit hC in
/-- Arrays of one size are of the right size or not alike. -/
theorem forall₂_sizeFindings (m : Member) :
    List.Forall₂ (Diagnostic.Corresponds C) (s.sizeFindings m a) (s.sizeFindings m b) := by
  simp only [sizeFindings, hchildren.length_eq]
  split
  · exact .cons (corresponds_finding hab _) .nil
  · split
    · exact .cons (corresponds_finding hab _) .nil
    · exact .nil

omit hab in
/-- Elements are repeated alike. -/
theorem forall₂_uniquenessFindings (h : s.catalog.Loaded)
    (ha : s.catalog.content? a = some .array) :
    List.Forall₂ (Diagnostic.Corresponds C) (s.evaluate (s.uniquenessFindings a))
      (s.evaluate (s.uniquenessFindings b)) := by
  rw [evaluate_uniquenessFindings, evaluate_uniquenessFindings]
  refine List.rel_map ?_ (forall₂_repeats (R := C) (List.rel_filterMap ?_
    (forall₂_elements hchildren h ha)))
  · rintro ⟨x, first⟩ ⟨y, first'⟩ ⟨hxy, -⟩
    exact corresponds_finding hxy _
  · rintro x y ⟨hxy, v, hv⟩
    dsimp only
    rw [(hC x y hxy).elementKey?_eq hv]
    cases s.evaluate (s.elementKey? y) with
    | none => exact .none
    | some key => exact .some ⟨rfl, hxy⟩

/-- What is found in values that are meant for one member corresponds. -/
theorem forall₂_valueFindings (h : s.catalog.Loaded) {member : NodeId} {m : Member}
    (hm : s.catalog.content? member = some (.member m)) {k : Kind}
    (hk : s.catalog.kind? a = some k) (hvalue : k.isValue = true) :
    List.Forall₂ (Diagnostic.Corresponds C) (s.evaluate (s.valueFindings member a))
      (s.evaluate (s.valueFindings member b)) := by
  rw [evaluate_valueFindings, evaluate_valueFindings, evaluate_typeFindings, evaluate_typeFindings]
  refine List.rel_append (List.rel_map ?_ (forall₂_mismatches hC hab hchildren h hm hk hvalue)) ?_
  · rintro x y ⟨hxy, hexpected, hfound⟩
    dsimp only
    rw [hexpected, hfound]
    exact corresponds_finding hxy _
  · have hmember : s.catalog.member? member = some m := by rw [Catalog.member?, hm]
    have hcontent := (hC a b hab).content
    by_cases ha : s.catalog.content? a = some .array
    · have hb := Catalog.array_of_bareContent?_eq hcontent ha
      rw [evaluate_arrayFindings hmember ha, evaluate_arrayFindings hmember hb]
      refine List.rel_append (forall₂_sizeFindings hab hchildren m) ?_
      split
      · exact forall₂_uniquenessFindings hC hchildren h ha
      · exact .nil
    · have hb : s.catalog.content? b ≠ some .array := fun hb ↦
        ha (Catalog.array_of_bareContent?_eq hcontent.symm hb)
      rw [arrayFindings_eq_nil (.inr ha), arrayFindings_eq_nil (.inr hb)]
      exact .nil

end Related

/-! ### Values of one member -/

/-- The nodes of values that a file gives to one member read the same, if the values are written the
same. -/
theorem forall₂_readsAs (h : s.catalog.Loaded) {file : FileId} {d : Document} {member : NodeId}
    {w : Value} (hd : s.catalog.document? file = some d) (hga : s.Gives file member a)
    (hgb : s.Gives file member b) (hwa : d.writtenValue? a.index = some w)
    (hwb : d.writtenValue? b.index = some w) :
    List.Forall₂ s.ReadsAs (s.catalog.valueNodes a) (s.catalog.valueNodes b) := by
  have hfile {n : NodeId} (hg : s.Gives file member n) : s.catalog.document? n.file = some d := by
    rw [(hg.of_mem_valueNodes h List.mem_cons_self).1]
    exact hd
  have hcontents := h.forall₂_bareContent? (hfile hga) (hfile hgb) hwa hwb
  refine List.forall₂_iff_zip.2 ⟨hcontents.length_eq, fun {x y} hxy ↦ ?_⟩
  obtain ⟨hx, hy⟩ := List.of_mem_zip hxy
  obtain ⟨hxfile, hxmember, k, hk, hvalue⟩ := hga.of_mem_valueNodes h hx
  obtain ⟨hyfile, hymember, -⟩ := hgb.of_mem_valueNodes h hy
  exact readsAs_of_memberAt? h (hxfile.trans hyfile.symm) (List.forall₂_zip hcontents hxy) hk hvalue
    (hxmember.trans hymember.symm)

/-- **Defaults and assignments are judged alike.** Let a file give two values to one member, the one
as its default and the other by an assignment, or both by assignments, and let the two be written
the same. Then they have the same nodes, one by one and in order. Nodes at the same place come to
the same, or fail to in the same way. And the findings of the file at the nodes of the one
correspond to those at the nodes of the other, one to one and in order, whatever they are about:
each stands at the same place, and has the same severity, code, message and payload, and is related
to the same nodes. -/
theorem check_corresponds (s : Snapshot) (h : s.catalog.Loaded) {file : FileId} {d : Document}
    {member a b : NodeId} {w : Value} (hd : s.catalog.document? file = some d)
    (hga : s.Gives file member a) (hgb : s.Gives file member b)
    (hwa : d.writtenValue? a.index = some w) (hwb : d.writtenValue? b.index = some w) :
    (s.catalog.valueNodes a).length = (s.catalog.valueNodes b).length ∧
    (∀ x y, (x, y) ∈ (s.catalog.valueNodes a).zip (s.catalog.valueNodes b) →
      s.resolutionAt x = s.resolutionAt y) ∧
    List.Forall₂
      (Diagnostic.Corresponds fun x y ↦
        (x, y) ∈ (s.catalog.valueNodes a).zip (s.catalog.valueNodes b))
      ((s.evaluate (s.check file)).filter (·.node ∈ s.catalog.valueNodes a))
      ((s.evaluate (s.check file)).filter (·.node ∈ s.catalog.valueNodes b)) := by
  have hreads := forall₂_readsAs h hd hga hgb hwa hwb
  refine ⟨hreads.length_eq, fun x y hxy ↦ (List.forall₂_zip hreads hxy).resolution, ?_⟩
  obtain ⟨m, k, hm, hk, hvalue, -⟩ := hga.scalars h
  have hC : ∀ x y, (x, y) ∈ (s.catalog.valueNodes a).zip (s.catalog.valueNodes b) →
      s.ReadsAs x y := fun x y hxy ↦ List.forall₂_zip hreads hxy
  have hnodes : List.Forall₂
      (fun x y ↦ (x, y) ∈ (s.catalog.valueNodes a).zip (s.catalog.valueNodes b))
      (s.catalog.valueNodes a) (s.catalog.valueNodes b) :=
    List.forall₂_iff_zip.2 ⟨hreads.length_eq, id⟩
  rw [filter_check_of_gives h hga, filter_check_of_gives h hgb]
  refine List.rel_append (List.rel_flatMap hnodes fun x y hxy ↦ ?_) ?_
  · exact (hC x y hxy).forall₂_referenceFindings hxy
  · obtain ⟨hab, hchildren⟩ := List.forall₂_cons.1 hnodes
    exact forall₂_valueFindings hC hab hchildren h hm hk hvalue

end Snapshot

end Classes

namespace Snapshot

/-- One document with an enumeration, an entity and an instance of it. The member of the entity
holds at most three different literals. Its default and what the instance assigns to it are four
values, a literal twice, one that is not declared and a number. Place 4 is the member, 6 its default
with the elements 7 to 10, and 13 the assigned value with the elements 14 to 17. -/
def ofRepeatedValue : Snapshot :=
  let value : Value := .array [.scalar (.literal "Red"), .scalar (.literal "Blue"),
    .scalar (.literal "Red"), .scalar (.integer 3)]
  .ofDocuments [.drafting ⟨0⟩ "m" [.declare (.enumeration ⟨"Color", ["Red"]⟩),
    .declare (.entity ⟨"E", some "e", [⟨"colors", .attribute, .enumeration "Color",
      ⟨none, some 3, true⟩, true, false, some value⟩]⟩),
    .declare (.instantiation ⟨"i", "e", [⟨"colors", value⟩]⟩)]]

theorem loaded_ofRepeatedValue : ofRepeatedValue.catalog.Loaded := .ofDrafting _ _ (by decide)

/-- There four findings of the default have counterparts at the assigned value. -/
theorem check_corresponds_ofRepeatedValue :
    ofRepeatedValue.Gives ⟨0⟩ ⟨⟨0⟩, 4⟩ ⟨⟨0⟩, 6⟩ ∧ ofRepeatedValue.Gives ⟨0⟩ ⟨⟨0⟩, 4⟩ ⟨⟨0⟩, 13⟩ ∧
      ((ofRepeatedValue.evaluate (ofRepeatedValue.check ⟨0⟩)).filter
        (·.node ∈ ofRepeatedValue.catalog.valueNodes ⟨⟨0⟩, 6⟩)).map
          (fun x ↦ (x.node.index, x.code)) =
        [(8, some "linking-error"), (10, some "type-mismatch"), (6, some "array-size"),
          (9, some "array-not-unique")] ∧
      ofRepeatedValue.resolutionAt ⟨⟨0⟩, 9⟩ = ofRepeatedValue.resolutionAt ⟨⟨0⟩, 16⟩ ∧
      List.Forall₂
        (Diagnostic.Corresponds fun x y ↦
          (x, y) ∈ (ofRepeatedValue.catalog.valueNodes ⟨⟨0⟩, 6⟩).zip
            (ofRepeatedValue.catalog.valueNodes ⟨⟨0⟩, 13⟩))
        ((ofRepeatedValue.evaluate (ofRepeatedValue.check ⟨0⟩)).filter
          (·.node ∈ ofRepeatedValue.catalog.valueNodes ⟨⟨0⟩, 6⟩))
        ((ofRepeatedValue.evaluate (ofRepeatedValue.check ⟨0⟩)).filter
          (·.node ∈ ofRepeatedValue.catalog.valueNodes ⟨⟨0⟩, 13⟩)) := by
  have hassigned : ofRepeatedValue.resolutionAt ⟨⟨0⟩, 12⟩ = .found ⟨⟨0⟩, 4⟩ := by decide
  have hdefault : ofRepeatedValue.Gives ⟨0⟩ ⟨⟨0⟩, 4⟩ ⟨⟨0⟩, 6⟩ := .default rfl rfl rfl
  have hvalue : ofRepeatedValue.Gives ⟨0⟩ ⟨⟨0⟩, 4⟩ ⟨⟨0⟩, 13⟩ := .assigned rfl rfl hassigned rfl
  obtain ⟨-, hresolution, hfindings⟩ := check_corresponds ofRepeatedValue loaded_ofRepeatedValue rfl
    hdefault hvalue rfl rfl
  exact ⟨hdefault, hvalue, by decide, hresolution _ _ (by decide), hfindings⟩

end Snapshot

end Schemata
