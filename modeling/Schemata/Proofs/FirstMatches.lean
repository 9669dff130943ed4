import Schemata.Proofs.Entries
import Schemata.Proofs.Imports
import Schemata.Proofs.Values

/-!
# First matches

Three kinds of references name one of the declarations of a place: an import a document, an item a
classifier of a document, and an assignment a member of an entity. They are looked up in scopes,
which can tell that a name is ambiguous. The same declarations are also searched without scopes: a
document in an index of names, a classifier through the classifiers of its document, and a member
among the fields of its entity, which is how the type of a field is found.

These ways agree, whatever else has the name (`Snapshot.lookups_agree`). A search comes to the first
declaration of a name, and so does a scope, because in these three scopes nothing is imported. A
document is the exception that needs care: its scope drops all documents but the first of a name,
and those of the name of the document that imports.
-/

namespace Schemata

namespace Snapshot

section Classes

variable {classes : Text.IdentifierClasses}

variable {s : Snapshot} {n : NodeId}

/-- An item comes to the first classifier of its name in the document to which its import comes. -/
theorem resolutionAt_importItem_of_found (h : s.catalog.Loaded) {clause root : NodeId}
    {r : Reference} {rename : Option String}
    (hn : s.catalog.content? n = some (.importItem r rename))
    (hp : s.catalog.parent? n = some clause) (hroot : s.resolutionAt clause = .found root) :
    ∃ e, s.catalog.document? root.file = some e ∧ root = e.rootId ∧
      s.resolutionAt n = ((e.classifierNamed? r.text).map e.id).elim .notFound .found := by
  obtain ⟨clause', r', hp', hc⟩ := h.exists_importClause hn
  obtain rfl : clause = clause' := Option.some.inj (hp.symm.trans hp')
  have htarget : s.targetAt? clause = some root := targetAt?_eq_some_iff.2 hroot
  obtain ⟨d, hd⟩ := Catalog.exists_document_of_content? hc
  obtain ⟨e, he, hrootId, -⟩ := name_ne_of_importClause h.files_nodup hd hc htarget
  refine ⟨e, he, hrootId, ?_⟩
  rw [resolutionAt_of_reference h hn rfl, candidatesAt_importItem hn hp, htarget, Option.bind_some,
    he, Option.map_some]
  show (Scope.ofDeclared e.namedClassifiers).lookup r.text = _
  rw [Scope.lookup_ofDeclared, Document.lookup_namedClassifiers]

/-- An assignment comes to the first field of its name of the entity to which its instance comes. -/
theorem resolutionAt_assignment_of_found (h : s.catalog.Loaded) {owner entity : NodeId}
    {r : Reference} (hn : s.catalog.content? n = some (.assignment r))
    (hp : s.catalog.parent? n = some owner) (hentity : s.resolutionAt owner = .found entity) :
    s.resolutionAt n = ((s.catalog.fields entity).lookup r.text).elim .notFound .found := by
  obtain ⟨owner', name, r', hp', hc⟩ := h.exists_instantiation hn
  obtain rfl : owner = owner' := Option.some.inj (hp.symm.trans hp')
  have htarget : s.targetAt? owner = some entity := targetAt?_eq_some_iff.2 hentity
  obtain ⟨entityName, id, hce⟩ := exists_entity_of_instantiation hc htarget
  have hscope : s.candidatesAt n = some (.ofDeclared (s.catalog.fields entity)) := by
    rw [candidatesAt_assignment hn hp, htarget, Option.bind_some, Catalog.fields, hce]
  rw [resolutionAt_of_reference h hn rfl, hscope]
  exact Scope.lookup_ofDeclared _ _

/-- The type of a field is the type of the first member of its name. -/
theorem evaluate_fieldType (h : s.catalog.Loaded) {entity : NodeId} {name : String} :
    s.evaluate (s.fieldType entity name) =
      ((s.catalog.fields entity).lookup name).bind s.typeAt? := by
  rw [fieldType]
  cases hlookup : (s.catalog.fields entity).lookup name with
  | none => rfl
  | some member =>
    obtain ⟨before, after, heq, -⟩ := List.lookup_eq_some_iff.1 hlookup
    have hmem : (name, member) ∈ s.catalog.fields entity :=
      heq ▸ List.mem_append_right before List.mem_cons_self
    rw [Catalog.fields] at hmem
    split at hmem
    · rename_i entityName id hc
      obtain ⟨m, hm⟩ := h.member_of_mem_children hc (Catalog.mem_namedChildren_iff.1 hmem).1
      exact evaluate_declaredType_eq h hm
    · cases hmem

/-- **The ways to look up a name agree.** An import comes to the first document of its name, which
is the one that the index of names has, and to nothing if this is the name of its own document. It
is never ambiguous and never blocked, however many documents share a name. An item whose import
comes to a document comes to the first classifier of its name there, and an assignment whose
instance comes to an entity comes to the first field of its name, of which it has the type. Both are
not found exactly if there is none. -/
theorem lookups_agree (s : Snapshot) (h : s.catalog.Loaded) :
    (∀ n d r, s.catalog.document? n.file = some d →
      s.catalog.content? n = some (.importClause r) →
        (s.resolutionAt n =
          if r.text = d.name then .notFound
          else ((s.catalog.nameIndex.lookup r.text).bind s.catalog.document?).elim .notFound
            fun e ↦ .found e.rootId) ∧
        (s.catalog.nameIndex.lookup r.text).bind s.catalog.document? =
          s.catalog.documents.find? (·.name == r.text) ∧
        s.resolutionAt n ≠ .blocked ∧ ∀ targets, s.resolutionAt n ≠ .ambiguous targets) ∧
    (∀ n r rename clause root, s.catalog.content? n = some (.importItem r rename) →
      s.catalog.parent? n = some clause → s.resolutionAt clause = .found root →
        ∃ e, s.catalog.document? root.file = some e ∧ root = e.rootId ∧
          (∀ c, s.resolutionAt n = .found c ↔ (e.classifierNamed? r.text).map e.id = some c) ∧
          (s.resolutionAt n = .notFound ↔ e.classifierNamed? r.text = none)) ∧
    (∀ n r owner entity, s.catalog.content? n = some (.assignment r) →
      s.catalog.parent? n = some owner → s.resolutionAt owner = .found entity →
        (∀ m, s.resolutionAt n = .found m ↔ (s.catalog.fields entity).lookup r.text = some m) ∧
        (s.resolutionAt n = .notFound ↔ (s.catalog.fields entity).lookup r.text = none) ∧
        s.typeAt? n = s.evaluate (s.fieldType entity r.text)) := by
  refine ⟨fun n d r hd hn ↦ ?_, fun n r rename clause root hn hp hroot ↦ ?_,
    fun n r owner entity hn hp hentity ↦ ?_⟩
  · have hindex := Catalog.documentNamed?_eq_find? h.files_nodup r.text
    rw [resolutionAt_importClause h.files_nodup hd hn, ← Catalog.documentNamed?, hindex]
    split
    · simp
    · cases s.catalog.documents.find? (·.name == r.text) <;> simp
  · obtain ⟨e, he, hrootId, hresolution⟩ := resolutionAt_importItem_of_found h hn hp hroot
    refine ⟨e, he, hrootId, ?_⟩
    rw [hresolution]
    cases e.classifierNamed? r.text <;> simp
  · have hresolution := resolutionAt_assignment_of_found h hn hp hentity
    rw [typeAt?_assignment h hn, targetAt?, hresolution, evaluate_fieldType h]
    cases (s.catalog.fields entity).lookup r.text <;> simp [Resolution.target?]

end Classes

/-- Two documents of one name. The entity of the first has two members of one name. A third document
imports the entity by that name, and once more by its own. Place 1 there is the import, 2 its item,
3 the other import, 5 an instance and 6 its assignment. -/
def ofNamesakes : Snapshot :=
  .ofDocuments
    [.drafting ⟨0⟩ "lib" [.declare (.entity ⟨"E", some "e",
      [⟨"x", .attribute, .integer, ⟨none, none, false⟩, false, false, none⟩,
        ⟨"x", .attribute, .string, ⟨none, none, false⟩, false, false, none⟩]⟩)],
    .drafting ⟨1⟩ "lib" [.declare (.entity ⟨"E", some "e", []⟩)],
    .drafting ⟨2⟩ "app" [.declare (.imports ⟨"lib", [⟨"E", none⟩]⟩),
      .declare (.imports ⟨"app", [⟨"E", none⟩]⟩),
      .declare (.instantiation ⟨"i", "e", [⟨"x", .scalar (.integer 3)⟩]⟩)]]

theorem loaded_ofNamesakes : ofNamesakes.catalog.Loaded := by
  refine .ofDocuments fun d hd ↦ ?_
  simp only [List.mem_cons, List.not_mem_nil, or_false] at hd
  rcases hd with rfl | rfl | rfl <;> exact Document.drafted_drafting _ _ (by decide)

/-- There each comes to the first of its name, and the import of the own document to nothing. -/
theorem lookups_agree_ofNamesakes :
    ofNamesakes.catalog.Loaded ∧
      ofNamesakes.resolutionAt ⟨⟨2⟩, 1⟩ = .found ⟨⟨0⟩, 0⟩ ∧
      ofNamesakes.resolutionAt ⟨⟨2⟩, 3⟩ = .notFound ∧
      ofNamesakes.resolutionAt ⟨⟨2⟩, 2⟩ = .found ⟨⟨0⟩, 1⟩ ∧
      ofNamesakes.resolutionAt ⟨⟨2⟩, 6⟩ = .found ⟨⟨0⟩, 2⟩ ∧
      ofNamesakes.typeAt? ⟨⟨2⟩, 6⟩ = some .integer := by
  obtain ⟨himports, hitems, hassignments⟩ := lookups_agree ofNamesakes loaded_ofNamesakes
  have himport : ofNamesakes.resolutionAt ⟨⟨2⟩, 1⟩ = .found ⟨⟨0⟩, 0⟩ :=
    (himports ⟨⟨2⟩, 1⟩ _ _ rfl rfl).1
  have hown : ofNamesakes.resolutionAt ⟨⟨2⟩, 3⟩ = .notFound :=
    (himports ⟨⟨2⟩, 3⟩ _ _ rfl rfl).1
  obtain ⟨e, he, -, hfound, -⟩ := hitems ⟨⟨2⟩, 2⟩ _ _ _ _ rfl rfl himport
  obtain rfl := Option.some.inj he
  obtain ⟨hmember, -, htype⟩ := hassignments ⟨⟨2⟩, 6⟩ _ ⟨⟨2⟩, 5⟩ ⟨⟨0⟩, 1⟩ rfl rfl (by decide)
  exact ⟨loaded_ofNamesakes, himport, hown, (hfound _).2 rfl, (hmember _).2 rfl, htype⟩

end Snapshot

end Schemata
