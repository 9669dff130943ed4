import Schemata.Proofs.Resolution

/-!
# What imports come to

An import names a document, and the name decides alone: it comes to the first document of that name,
and to none if this is the name of the document that imports. So a document never imports itself,
nor any other of its own name. Which documents an item can reach follows: its target is a classifier
of the document to which its import comes, and so stands in another file.
-/

namespace Schemata

variable {classes : Text.IdentifierClasses}

namespace Document

variable {d : Document}

theorem mem_namedClassifiers_iff {name : String} {t : NodeId} :
    (name, t) ∈ d.namedClassifiers ↔ ∃ i ∈ d.classifiers, d.name? i = some name ∧ d.id i = t := by
  simp only [namedClassifiers, named, List.mem_filterMap, Option.map_eq_some_iff, Prod.mk.injEq]
  constructor
  · rintro ⟨i, hi, _, hname, rfl, ht⟩
    exact ⟨i, hi, hname, ht⟩
  · rintro ⟨i, hi, hname, ht⟩
    exact ⟨i, hi, name, hname, rfl, ht⟩

/-- The first classifier of a name is the first that the document names so. -/
theorem lookup_namedClassifiers (d : Document) (name : String) :
    d.namedClassifiers.lookup name = (d.classifierNamed? name).map d.id := by
  rw [namedClassifiers, named, classifierNamed?]
  exact lookup_filterMap d.name? (fun i _ ↦ d.id i) d.classifiers name

/-- What a document names stands in its file. -/
theorem file_of_mem_namedClassifiers {name : String} {t : NodeId}
    (h : (name, t) ∈ d.namedClassifiers) : t.file = d.file := by
  obtain ⟨i, -, -, rfl⟩ := mem_namedClassifiers_iff.1 h
  rfl

/-- An item stands below an import of its document. -/
theorem exists_clause_of_mem_importItems {item : LocalId} {rename : Option String}
    (h : (item, rename) ∈ d.importItems) :
    ∃ clause ∈ d.imports, item ∈ d.children clause ∧
      ∃ r, d.content? clause = some (.importClause r) := by
  obtain ⟨clause, hclause, h⟩ := List.mem_flatMap.1 h
  split at h
  · rename_i r hr
    obtain ⟨item', hitem, heq⟩ := List.mem_filterMap.1 h
    have hsame : item' = item := by
      split at heq
      · exact (Prod.mk.inj (Option.some.inj heq)).1
      · cases heq
    exact ⟨clause, hclause, hsame ▸ hitem, r, hr⟩
  · cases h

end Document

namespace Snapshot

variable {s : Snapshot} {n t : NodeId} {d : Document}

/-- An import comes to the first document of its name, unless the name is that of its own
document. -/
theorem resolutionAt_importClause (hfiles : s.catalog.files.Nodup)
    (hd : s.catalog.document? n.file = some d) {r : Reference}
    (hn : s.catalog.content? n = some (.importClause r)) :
    s.resolutionAt n =
      if r.text = d.name then .notFound else
        match s.catalog.documentNamed? r.text with
        | none => .notFound
        | some e => .found e.rootId := by
  exact (answerWithin_importClause 6 hd hn).trans
    (Catalog.lookup_documentScope hfiles d.name r.text)

/-- What an item comes to is decided by the document to which its import comes. -/
theorem resolutionAt_importItem (h : s.catalog.Loaded) (hd : s.catalog.document? n.file = some d)
    {p : NodeId} {r r' : Reference} {rename : Option String}
    (hn : s.catalog.content? n = some (.importItem r rename)) (hp : s.catalog.parent? n = some p)
    (hc : s.catalog.content? p = some (.importClause r')) :
    s.resolutionAt n =
      if r'.text = d.name then .blocked else
        match s.catalog.documentNamed? r'.text with
        | none => .blocked
        | some e => (Scope.ofDeclared e.namedClassifiers).lookup r.text := by
  have hpd : s.catalog.document? p.file = some d := by
    rw [Catalog.file_of_parent? hp]
    exact hd
  rw [resolutionAt_of_reference h hn rfl, candidatesAt_importItem hn hp, targetAt?,
    resolutionAt_importClause h.files_nodup hpd hc]
  by_cases hown : r'.text = d.name
  · rw [if_pos hown, if_pos hown]
    rfl
  · rw [if_neg hown, if_neg hown]
    cases he : s.catalog.documentNamed? r'.text with
    | none => rfl
    | some e =>
      have he : s.catalog.document? e.rootId.file = some e :=
        h.document?_of_mem (Catalog.mem_documents_of_documentNamed? he)
      simp only [Resolution.target?, Option.bind_some, he, Option.map_some]

/-- Whether an import of a document comes to another document. -/
def Imports (s : Snapshot) (d e : Document) : Prop :=
  ∃ clause ∈ d.imports, s.resolutionAt (d.id clause) = .found e.rootId

/-- No import comes to a document of the name of its own. -/
theorem name_ne_of_importClause (hfiles : s.catalog.files.Nodup)
    (hd : s.catalog.document? n.file = some d) {r : Reference}
    (hn : s.catalog.content? n = some (.importClause r)) (ht : s.targetAt? n = some t) :
    ∃ e, s.catalog.document? t.file = some e ∧ t = e.rootId ∧ e.name ≠ d.name := by
  rw [targetAt?_eq_some_iff, resolutionAt_importClause hfiles hd hn] at ht
  split at ht
  · cases ht
  · rename_i hown
    cases he : s.catalog.documentNamed? r.text with
    | none =>
      rw [he] at ht
      cases ht
    | some e =>
      rw [he] at ht
      obtain rfl : e.rootId = t := Resolution.found.inj ht
      have hname : e.name = r.text := Catalog.documentNamed?_eq_some hfiles he
      have hmem : e ∈ s.catalog.documents := Catalog.mem_documents_of_documentNamed? he
      exact ⟨e, Catalog.document?_eq_some_of_mem hfiles hmem, rfl, fun h ↦ hown (hname ▸ h)⟩

/-- An item comes to a classifier of the document to which its import comes. -/
theorem exists_document_of_importItem (h : s.catalog.Loaded) {r : Reference}
    {rename : Option String} (hn : s.catalog.content? n = some (.importItem r rename))
    (ht : s.targetAt? n = some t) :
    ∃ clause e, s.catalog.parent? n = some clause ∧
      (∃ r', s.catalog.content? clause = some (.importClause r')) ∧
      s.targetAt? clause = some e.rootId ∧ s.catalog.document? t.file = some e ∧
      (∀ d, s.catalog.document? n.file = some d → e.name ≠ d.name) ∧
      (r.text, t) ∈ e.namedClassifiers := by
  obtain ⟨clause, r', hp, hc⟩ := h.exists_importClause hn
  obtain ⟨d, hd⟩ := Catalog.exists_document_of_content? hn
  have hclause : s.catalog.document? clause.file = some d := by
    rw [Catalog.file_of_parent? hp]
    exact hd
  have hresolution := resolutionAt_importClause h.files_nodup hclause hc
  rw [targetAt?_eq_some_iff, resolutionAt_importItem h hd hn hp hc] at ht
  by_cases hown : r'.text = d.name
  · rw [if_pos hown] at ht
    cases ht
  · rw [if_neg hown] at ht hresolution
    cases he : s.catalog.documentNamed? r'.text with
    | none =>
      rw [he] at ht
      cases ht
    | some e =>
      rw [he] at ht hresolution
      have hmem : (r.text, t) ∈ e.namedClassifiers := Scope.exists_mem_of_lookup_ofDeclared ht
      refine ⟨clause, e, hp, ⟨r', hc⟩, targetAt?_eq_some_iff.2 hresolution, ?_, fun d' hd' ↦ ?_,
        hmem⟩
      · rw [Document.file_of_mem_namedClassifiers hmem]
        exact h.document?_of_mem (Catalog.mem_documents_of_documentNamed? he)
      · obtain rfl : d = d' := Option.some.inj (hd.symm.trans hd')
        rw [Catalog.documentNamed?_eq_some h.files_nodup he]
        exact hown

/-- An item comes to a classifier of a document that its own document imports, and that has another
name. -/
theorem exists_imports_of_importItem (h : s.catalog.Loaded)
    (hd : s.catalog.document? d.file = some d) {item : LocalId} {rename : Option String}
    (hitem : (item, rename) ∈ d.importItems) (ht : s.targetAt? (d.id item) = some t) :
    ∃ e r, s.catalog.document? t.file = some e ∧ s.Imports d e ∧ e.name ≠ d.name ∧
      d.content? item = some (.importItem r rename) ∧ (r.text, t) ∈ e.namedClassifiers := by
  obtain ⟨r, hr⟩ := Document.content?_of_mem_importItems hitem
  obtain ⟨clause, hclause, hchild, -⟩ := Document.exists_clause_of_mem_importItems hitem
  have hn : s.catalog.content? (d.id item) = some (.importItem r rename) :=
    (Catalog.content?_id hd item).trans hr
  have hp : s.catalog.parent? (d.id item) = some (d.id clause) := by
    refine h.mem_children_iff.1 ?_
    rw [Catalog.children_eq (n := d.id clause) hd]
    exact List.mem_map.2 ⟨item, hchild, rfl⟩
  obtain ⟨clause', e, hp', -, hsource, he, hname, hmem⟩ := exists_document_of_importItem h hn ht
  obtain rfl : d.id clause = clause' := Option.some.inj (hp.symm.trans hp')
  exact ⟨e, r, he, ⟨clause, hclause, targetAt?_eq_some_iff.1 hsource⟩, hname d hd, hr, hmem⟩

/-- An item comes to a node of another file. -/
theorem file_ne_of_importItem (h : s.catalog.Loaded) (hd : s.catalog.document? d.file = some d)
    {item : LocalId} {rename : Option String} (hitem : (item, rename) ∈ d.importItems)
    (ht : s.targetAt? (d.id item) = some t) : t.file ≠ d.file := by
  obtain ⟨e, -, he, -, hname, -⟩ := exists_imports_of_importItem h hd hitem ht
  intro hfile
  rw [hfile, hd, Option.some.injEq] at he
  exact hname (he ▸ rfl)

end Snapshot

end Schemata
