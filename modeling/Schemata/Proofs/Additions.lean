import Schemata.Proofs.Entries
import Schemata.Proofs.Imports

/-!
# One more import

A declaration that is added to a draft comes after all nodes that are there, so they keep their
places, and only the root has a new child. For an import of one classifier, `Document.AddsImport`
says what the longer document has beyond the shorter: a clause, an item below it, and nothing else.

The longer document is loaded in place of the shorter one. As the two have the same file and name,
no import of another name sees a difference (`Catalog.documentNamed?_insert_of_ne`), and nodes say
what they said (`Document.AddsImport.content?_insert`).
-/

namespace Schemata

variable {classes : Text.IdentifierClasses}

/-- The step of drafting that imports one classifier under its own name. -/
def Edit.importing (source text : String) : Edit :=
  .declare (.imports ⟨source, [⟨text, none⟩]⟩)

namespace Document

/-- Whether a document is another with one more import, of one classifier, behind all else. -/
structure AddsImport (d d' : Document) (source text : String) : Prop where
  file_eq : d'.file = d.file
  name_eq : d'.name = d.name
  imports_eq : d'.imports = d.imports ++ [d.size]
  classifiers_eq : d'.classifiers = d.classifiers
  node?_eq : ∀ {n : LocalId}, 0 < n → n < d.size → d'.node? n = d.node? n
  clause : ∃ range, d'.content? d.size = some (.importClause ⟨source, range⟩)
  children_clause : d'.children d.size = [d.size + 1]
  item : ∃ range, d'.content? (d.size + 1) = some (.importItem ⟨text, range⟩ none)
  parent?_item : d'.parent? (d.size + 1) = some d.size

theorem addsImport_append (draft : Draft) (source text : String) :
    draft.document.AddsImport (draft.append (.imports ⟨source, [⟨text, none⟩]⟩)).document
      source text := by
  set d := draft.document
  set d' := (draft.append (.imports ⟨source, [⟨text, none⟩]⟩)).document
  obtain ⟨clause, item, hbody, ⟨range, hclause, hchildren⟩, range', hitem, hparent⟩ :
      ∃ clause item : Node, d'.body = d.body ++ [clause, item] ∧
        (∃ range, clause.content = .importClause ⟨source, range⟩ ∧
          clause.children = [d.size + 1]) ∧
        ∃ range, item.content = .importItem ⟨text, range⟩ none ∧ item.parent = some d.size :=
    ⟨_, _, rfl, ⟨_, rfl, rfl⟩, ⟨_, rfl, rfl⟩⟩
  have hnode : d'.node? d.size = some clause := by
    rw [Document.size, node?_succ, hbody]
    simp
  have hnode' : d'.node? (d.size + 1) = some item := by
    rw [Document.size, node?_succ, hbody]
    simp
  refine ⟨rfl, rfl, rfl, rfl, fun {n} hn hsize ↦ ?_, ⟨range, ?_⟩, ?_, ⟨range', ?_⟩, ?_⟩
  · obtain ⟨m, rfl⟩ := Nat.exists_eq_succ_of_ne_zero (Nat.ne_of_gt hn)
    rw [Document.size] at hsize
    rw [Nat.succ_eq_add_one, node?_succ, node?_succ, hbody,
      List.getElem?_append_left (Nat.lt_of_succ_lt_succ hsize)]
  · rw [content?, hnode, Option.map_some, hclause]
  · rw [children, hnode, Option.map_some, Option.getD_some, hchildren]
  · rw [content?, hnode', Option.map_some, hitem]
  · rw [parent?, hnode', Option.bind_some, hparent]

end Document

theorem Draft.steps_append_singleton (draft : Draft) (edits : List Edit) (e : Edit) :
    draft.steps (edits ++ [e]) =
      let (last, outcomes) := draft.steps edits
      ((last.step e).1, outcomes ++ [(last.step e).2]) := by
  induction edits generalizing draft with
  | nil => rfl
  | cons e' edits ih =>
    rw [List.cons_append, steps]
    simp only [ih, steps, List.cons_append]

/-- An import of texts that are not blank is accepted at the end of every draft. -/
theorem Document.ofEdits?_append_importing {file : FileId} {name source text : String}
    {edits : List Edit} {d : Document} {outcomes : List Outcome}
    (h : ofEdits? file name edits = .ok (d, outcomes)) (hsource : Text.isBlank source = false)
    (htext : Text.isBlank text = false) :
    ∃ d', ofEdits? file name (edits ++ [.importing source text]) =
        .ok (d', outcomes ++ [.declared d.size]) ∧ d.AddsImport d' source text := by
  rw [ofEdits?] at h
  cases hstart : Draft.start? file name with
  | error e =>
    rw [hstart] at h
    cases h
  | ok draft =>
    rw [hstart] at h
    obtain ⟨rfl, rfl⟩ := Prod.mk.inj (Except.ok.inj h)
    have hviolation : (Declaration.imports ⟨source, [⟨text, none⟩]⟩).firstViolation? = none := by
      rw [Declaration.firstViolation?_eq_none_iff]
      simp [Declaration.violations, ImportItem.violations, hsource, htext]
    refine ⟨_, ?_, addsImport_append (draft.steps edits).1 source text⟩
    rw [ofEdits?, hstart]
    show Except.ok (_, _) = _
    simp only [Draft.steps_append_singleton, Edit.importing, Draft.step,
      Draft.declare_of_no_violation hviolation]

/-! ### What stays -/

theorem Document.lt_size_of_content? {d : Document} {n : LocalId} {content : Content Reference}
    (h : d.content? n = some content) : n < d.size := by
  obtain ⟨node, hnode, -⟩ := Option.map_eq_some_iff.1 h
  exact (isSome_node?_iff d n).1 (by rw [hnode]; rfl)

namespace Document.AddsImport

variable {d d' : Document} {source text : String} (h : d.AddsImport d' source text) {n : LocalId}
include h

/-- The nodes that are there say what they said. -/
theorem content?_eq (hn : n < d.size) : d'.content? n = d.content? n := by
  rcases Nat.eq_zero_or_pos n with rfl | hpos
  · simp [content?, root, h.name_eq]
  · rw [content?, content?, h.node?_eq hpos hn]

theorem parent?_eq (hn : n < d.size) : d'.parent? n = d.parent? n := by
  rcases Nat.eq_zero_or_pos n with rfl | hpos
  · rfl
  · rw [parent?, parent?, h.node?_eq hpos hn]

theorem children_eq (hpos : 0 < n) (hn : n < d.size) : d'.children n = d.children n := by
  rw [children, children, h.node?_eq hpos hn]

/-- One item is imported after those that were. -/
theorem importItems_eq (htree : d.Tree) :
    d'.importItems = d.importItems ++ [(d.size + 1, none)] := by
  rw [importItems, h.imports_eq, List.flatMap_append]
  congr 1
  · refine List.flatMap_congr fun clause hclause ↦ ?_
    have hkind : d.kind? clause = some .importClause := htree.kind_imports clause hclause
    obtain ⟨content, hc, -⟩ := kind?_eq_some_iff.1 hkind
    have hn : clause < d.size := lt_size_of_content? hc
    have hpos : 0 < clause := by
      refine Nat.pos_of_ne_zero ?_
      rintro rfl
      cases hkind
    rw [h.content?_eq hn, h.children_eq hpos hn]
    have hitem : ∀ item ∈ d.children clause, item < d.size := by
      intro item hitem
      obtain ⟨node, hnode, -⟩ := Option.bind_eq_some_iff.1 (htree.mem_children_iff.1 hitem)
      exact (isSome_node?_iff d item).1 (by rw [hnode]; rfl)
    split
    · exact List.filterMap_congr fun item hmem ↦ by rw [h.content?_eq (hitem item hmem)]
    · rfl
  · obtain ⟨range, hclause⟩ := h.clause
    obtain ⟨range', hitem⟩ := h.item
    simp [hclause, h.children_clause, hitem]

end Document.AddsImport

/-! ### In place of the shorter document -/

namespace Catalog

variable {c : Catalog} {d d' : Document}

/-- A document is loaded in place of the one of its file. -/
theorem exists_documents_insert (hfiles : c.files.Nodup) (hd : c.document? d'.file = some d) :
    ∃ before after, c.documents = before ++ d :: after ∧
      (c.insert d').documents = before ++ d' :: after := by
  have hmem : d ∈ c.documents := List.mem_of_find?_eq_some hd
  have hfile : d.file = d'.file := document?_eq_some hd
  obtain ⟨before, after, hdocuments⟩ := List.append_of_mem hmem
  rw [files, hdocuments, List.map_append, List.map_cons, List.nodup_middle, List.nodup_cons,
    List.mem_append, not_or, hfile] at hfiles
  refine ⟨before, after, hdocuments, ?_⟩
  have hany : c.documents.any (·.file == d'.file) = true :=
    List.any_eq_true.2 ⟨d, hmem, by simp [hfile]⟩
  show (if _ then _ else _) = _
  rw [if_pos hany, hdocuments, replace, List.map_append, ← replace, replace_eq_self hfiles.1.1]
  show before ++ replace d' (d :: after) = _
  rw [replace_cons, if_pos hfile, replace_eq_self hfiles.1.2]

variable (hfiles : c.files.Nodup) (hd : c.document? d'.file = some d)
include hfiles hd

theorem document?_insert_self : (c.insert d').document? d'.file = some d' := by
  have hmem : d' ∈ (c.insert d').documents := by
    obtain ⟨before, after, -, hdocuments⟩ := exists_documents_insert hfiles hd
    simp [hdocuments]
  exact document?_eq_some_of_mem (nodup_files_insert hfiles d') hmem

theorem document?_insert_of_ne {file : FileId} (hne : file ≠ d'.file) :
    (c.insert d').document? file = c.document? file := by
  obtain ⟨before, after, hdocuments, hdocuments'⟩ := exists_documents_insert hfiles hd
  have hfile : d.file = d'.file := document?_eq_some hd
  rw [document?, document?, hdocuments, hdocuments', List.find?_append, List.find?_append,
    List.find?_cons_of_neg (by simpa using hne.symm),
    List.find?_cons_of_neg (by simpa [hfile] using hne.symm)]

/-- Under any other name than its own the same documents are found. -/
theorem documentNamed?_insert_of_ne (hname : d'.name = d.name) {name : String}
    (hne : name ≠ d.name) : (c.insert d').documentNamed? name = c.documentNamed? name := by
  obtain ⟨before, after, hdocuments, hdocuments'⟩ := exists_documents_insert hfiles hd
  rw [documentNamed?_eq_find? hfiles, documentNamed?_eq_find? (nodup_files_insert hfiles d'),
    hdocuments, hdocuments', List.find?_append, List.find?_append,
    List.find?_cons_of_neg (by simpa [hname] using hne.symm),
    List.find?_cons_of_neg (by simpa using hne.symm)]

end Catalog

namespace Document.AddsImport

variable {c : Catalog} {d d' : Document} {source text : String} (h : d.AddsImport d' source text)
  (hfiles : c.files.Nodup) (hd : c.document? d.file = some d) {n : NodeId}
  {content : Content Reference} (hn : c.content? n = some content)
include h hfiles hd hn

/-- A node stands in the shorter document, or in one that stays. -/
theorem document?_insert :
    (c.document? n.file = some d ∧ (c.insert d').document? n.file = some d' ∧ n.index < d.size) ∨
      (c.insert d').document? n.file = c.document? n.file := by
  have hd' : c.document? d'.file = some d := h.file_eq ▸ hd
  by_cases hfile : n.file = d.file
  · have hown : c.document? n.file = some d := hfile ▸ hd
    rw [Catalog.content?_eq hown] at hn
    refine .inl ⟨hown, ?_, Document.lt_size_of_content? hn⟩
    rw [hfile, ← h.file_eq]
    exact Catalog.document?_insert_self hfiles hd'
  · exact .inr (Catalog.document?_insert_of_ne hfiles hd' (h.file_eq ▸ hfile))

/-- Nodes say in the new catalog what they said. -/
theorem content?_insert : (c.insert d').content? n = some content := by
  rcases h.document?_insert hfiles hd hn with ⟨hown, hnew, hlt⟩ | hsame
  · rw [Catalog.content?_eq hnew, h.content?_eq hlt, ← Catalog.content?_eq hown, hn]
  · rw [Catalog.content?_congr hsame, hn]

/-- And stand where they stood. -/
theorem parent?_insert : (c.insert d').parent? n = c.parent? n := by
  rcases h.document?_insert hfiles hd hn with ⟨hown, hnew, hlt⟩ | hsame
  · rw [Catalog.parent?_eq hnew, h.parent?_eq hlt, ← Catalog.parent?_eq hown]
  · exact Catalog.parent?_congr hsame

end Document.AddsImport

end Schemata
