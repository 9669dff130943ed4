import Schemata.Proofs.Additions
import Schemata.Proofs.CheckAgreement
import Schemata.Proofs.Classifiers

/-!
# Imports that are offered

A reference that comes to nothing points to declarations of its text elsewhere, so that a tool can
offer to import one. They are searched by the names that they declare. If the reference stands where
classifiers go by these names, the import helps: in the longer document the reference comes to the
declaration (`Snapshot.resolutionAt_of_importOffer`).

An instance does not. It calls its entity by the external id, under which an entity is imported as
under its name, and so it comes to what was offered only if the id happens to be the name. An entity
of another id is offered all the same, and its import changes nothing
(`Snapshot.not_found_of_importOffer`).
-/

namespace Schemata

section Classes

variable {classes : Text.IdentifierClasses}

/-! ### What is accepted as a name -/

namespace Document

variable {d : Document}

theorem Holds.name?_eq {parent n : LocalId} {t : Outline} (h : d.Holds parent n t) :
    d.name? n = t.content.name? := by
  obtain ⟨content, children⟩ := t
  obtain ⟨node, hnode, rfl, -⟩ := h.node?
  rw [name?, hnode, Option.bind_some, Node.name?, Outline.content, Content.name?_map]

/-- The name of a classifier is an identifier. -/
theorem Drafted.isIdentifier_of_classifier (h : d.Drafted) {i : LocalId} (hi : i ∈ d.classifiers)
    {name : String} (hname : d.name? i = some name) : Text.isIdentifier name = true := by
  obtain ⟨xs, hlays⟩ := h.exists_lays
  rw [hlays.classifiers] at hi
  obtain ⟨x, hx, hclassifier, hzip⟩ := Declaration.exists_of_mem_placesOf hi
  have hviolations : x.violations = [] := hlays.accepted x hx
  rw [(hlays.holdsAll.holds hzip).name?_eq] at hname
  cases x with
  | imports s => cases hclassifier
  | entity s =>
    obtain rfl : s.name = name := Option.some.inj hname
    exact Violation.ofName_eq_nil.1 (List.append_eq_nil_iff.1 hviolations).1
  | enumeration s =>
    obtain rfl : s.name = name := Option.some.inj hname
    exact Violation.ofName_eq_nil.1 (List.append_eq_nil_iff.1 hviolations).1
  | instantiation s =>
    obtain rfl : s.name = name := Option.some.inj hname
    rw [Declaration.violations, List.append_assoc] at hviolations
    exact Violation.ofName_eq_nil.1 (List.append_eq_nil_iff.1 hviolations).1

end Document

/-! ### What is related -/

namespace Catalog

variable {c : Catalog} {site : Site} {text : String} {t : NodeId}

/-- What is declared elsewhere is of the kind that the site asks for. -/
theorem admits_of_mem_declaredElsewhere {file : FileId} {x : Related}
    (hx : x ∈ c.declaredElsewhere file site text) :
    ∃ content, c.content? x.node = some content ∧ site.admits content = true := by
  rw [declaredElsewhere_eq] at hx
  obtain ⟨d, -, hx⟩ := List.mem_flatMap.1 hx
  obtain ⟨e, -, hx⟩ := List.mem_filterMap.1 hx
  rw [node_of_offer? hx, content?]
  rw [offer?] at hx
  split at hx
  · cases hx
  · rename_i node hnode
    split at hx
    · rename_i hadmits
      exact ⟨node.content, by rw [hnode, Option.map_some], hadmits⟩
    · cases hx

/-- What a text can mean rests on what nodes say. -/
theorem means_congr {c' : Catalog} (h : c'.content? t = c.content? t) (name? : Option String) :
    c'.means site text name? t = c.means site text name? t := by
  have hid : c'.externalId? t = c.externalId? t := by rw [externalId?, externalId?, h]
  cases site <;> simp [means, eligible, key?, isClassifier, isEnumeration, isEntity, h, hid]

/-- A classifier of the kind that a site asks for is meant there by its name, except that an
instance means its entity by the external id. -/
theorem means_iff_of_admits {content : Content Reference} (hc : c.content? t = some content)
    (hadmits : site.admits content = true) (hsite : site.namesClassifier = true) :
    c.means site text (some text) t = true ↔
      (site = .instanceEntity → c.externalId? t = some text) := by
  have hkind : (content.isEntity = true → c.isEntity t = true) ∧
      (content.isEnumeration = true → c.isEnumeration t = true) := by
    rw [isEntity, isEnumeration, hc]
    exact ⟨id, id⟩
  cases site with
  | entityType =>
    have heligible : c.eligible .containedValue t = true := hkind.1 hadmits
    simp [means, eligible, key?, isClassifier_of_eligible heligible]
  | enumerationType => simp [means, eligible, key?, hkind.2 hadmits]
  | containedValue => simp [means, eligible, key?, hkind.1 hadmits]
  | instanceEntity =>
    simp only [means, eligible, key?, forall_const, Bool.and_eq_true, beq_iff_eq]
    exact and_iff_right_of_imp fun hid ↦ by rw [hid]; rfl
  | importSource | importItem | assignedMember | literalValue => cases hsite

end Catalog

namespace Snapshot

variable {s : Snapshot} {n : NodeId}

/-- A finding that a reference comes to nothing tells what is related to it. -/
theorem related_of_mem_check {content : Content Reference} {site : Site} {r : Reference}
    (hn : s.catalog.content? n = some content) (hr : content.reference? = some (site, r))
    (hnotFound : s.resolutionAt n = .notFound) {x : Diagnostic}
    (hx : x ∈ s.evaluate (s.check n.file)) (hnode : x.node = n) (hlinking : x.isLinking = true) :
    x.related = s.related n.file site r.text := by
  have hfinding := mem_referenceFindings_of_isLinking hx hlinking
  simp only [hnode, referenceFindings, hn, hr, evaluate, Query.eval_bind, eval_resolution,
    hnotFound] at hfinding
  obtain rfl := List.mem_singleton.1 hfinding
  rfl

/-! ### The offer is taken -/

/-- The snapshot after a document is loaded. -/
def loading (s : Snapshot) (d : Document) : Snapshot := ⟨s.catalog.insert d, s.settings⟩

/-- Whether a reference in a document that comes to nothing points to a declaration of another
document, and an import can reach that: no other document has the name of this one, and the
declaration is the first of its name. -/
structure ImportOffer [Text.IdentifierClasses] (s : Snapshot) (d : Document) (n : NodeId)
    (site : Site) (text : String) (e : Document) (t : NodeId) : Prop where
  loaded : s.catalog.Loaded
  document : s.catalog.document? n.file = some d
  reference : ∃ content r, s.catalog.content? n = some content ∧
    content.reference? = some (site, r) ∧ r.text = text
  namesClassifier : site.namesClassifier = true
  notFound : s.resolutionAt n = .notFound
  related : ∃ x ∈ s.evaluate (s.check n.file), x.node = n ∧ x.code = some "linking-error" ∧
    ∃ y ∈ x.related, y.node = t
  source : s.catalog.document? t.file = some e
  unique : ∀ e' ∈ s.catalog.documents, e'.name = e.name → e' = e
  name_ne : e.name ≠ d.name
  first : e.classifierNamed? text = some t.index

namespace ImportOffer

variable {d d' e : Document} {site : Site} {text : String} {t : NodeId}

section

variable (h : s.ImportOffer d n site text e t)
include h

theorem mem_classifiers : t.index ∈ e.classifiers := List.mem_of_find?_eq_some h.first

theorem name?_eq : s.catalog.name? t = some text := by
  rw [Catalog.name?_eq h.source]
  simpa using List.find?_some h.first

theorem document?_own : s.catalog.document? d.file = some d := by
  rw [Catalog.document?_eq_some h.document]
  exact h.document

/-- An import of the name comes to the document of the declaration. -/
theorem documentNamed?_eq : s.catalog.documentNamed? e.name = some e := by
  rw [Catalog.documentNamed?_eq_find? h.loaded.files_nodup]
  cases hfind : s.catalog.documents.find? (·.name == e.name) with
  | none =>
    have hnone := List.find?_eq_none.1 hfind e (List.mem_of_find?_eq_some h.source)
    simp at hnone
  | some e' =>
    have hname : e'.name = e.name := by simpa using List.find?_some hfind
    rw [h.unique e' (List.mem_of_find?_eq_some hfind) hname]

/-- The declaration is of the kind that the site asks for. -/
theorem exists_admits :
    ∃ content, s.catalog.content? t = some content ∧ site.admits content = true := by
  obtain ⟨content, r, hn, hr, rfl⟩ := h.reference
  obtain ⟨x, hx, hnode, hcode, y, hy, rfl⟩ := h.related
  have hlinking : x.isLinking = true := by simp [Diagnostic.isLinking, hcode]
  rw [related_of_mem_check hn hr h.notFound hx hnode hlinking, Snapshot.related] at hy
  split at hy
  · exact Catalog.admits_of_mem_declaredElsewhere hy
  · cases hy

/-- The text means nothing yet. -/
theorem meanings_eq_nil :
    s.importedMeanings d site text = [] ∧ s.declaredAs d site text = [] := by
  obtain ⟨content, r, hn, hr, rfl⟩ := h.reference
  obtain ⟨scope, -, hlookup, hmatching⟩ :=
    matching_eq h.loaded h.document hn hr h.namesClassifier
  have hnone := hlookup.symm.trans h.notFound
  rwa [Scope.lookup_eq_notFound_iff_of_matching hmatching
    (nodup_declaredAs h.loaded h.document?_own)
    (disjoint_importedMeanings_declaredAs h.loaded h.document?_own), eraseDups_eq_nil_iff] at hnone

/-- The import is accepted. -/
theorem exists_addsImport {edits : List Edit} {outcomes : List Outcome}
    (hedits : Document.ofEdits? n.file d.name edits = .ok (d, outcomes)) :
    ∃ d', Document.ofEdits? n.file d.name (edits ++ [.importing e.name text]) =
        .ok (d', outcomes ++ [.declared d.size]) ∧ d.AddsImport d' e.name text := by
  have hdrafted : e.Drafted := h.loaded.drafted e (List.mem_of_find?_eq_some h.source)
  have hname : e.name? t.index = some text := by simpa using List.find?_some h.first
  have hidentifier := hdrafted.isIdentifier_of_classifier h.mem_classifiers hname
  exact Document.ofEdits?_append_importing hedits
    (Text.isBlank_eq_false_of_isQualifiedName hdrafted.isQualifiedName)
    (Text.isBlank_eq_false_of_isIdentifier hidentifier)

end

/-! ### The longer document -/

section

variable (h : s.ImportOffer d n site text e t) (hadds : d.AddsImport d' e.name text)
  (hdrafted : d'.Drafted)
include h hadds

theorem document?_loading : (s.loading d').catalog.document? d.file = some d' := by
  rw [← hadds.file_eq]
  exact Catalog.document?_insert_self h.loaded.files_nodup (hadds.file_eq ▸ h.document?_own)

/-- Imports of other names come to the same documents. -/
theorem documentNamed?_loading {name : String} (hne : name ≠ d.name) :
    (s.loading d').catalog.documentNamed? name = s.catalog.documentNamed? name :=
  Catalog.documentNamed?_insert_of_ne h.loaded.files_nodup (hadds.file_eq ▸ h.document?_own)
    hadds.name_eq hne

/-- Of what is there, the text means what it meant. -/
theorem means_loading {u : NodeId} {content : Content Reference}
    (hu : s.catalog.content? u = some content) (rename : Option String) :
    (s.loading d').catalog.means site text (rename.or ((s.loading d').catalog.name? u)) u =
      s.catalog.means site text (rename.or (s.catalog.name? u)) u := by
  have hsame : (s.loading d').catalog.content? u = s.catalog.content? u :=
    (hadds.content?_insert h.loaded.files_nodup h.document?_own hu).trans hu.symm
  rw [Catalog.means_congr hsame, Catalog.name?_eq_bind, Catalog.name?_eq_bind, hsame]

theorem declaredAs_loading : (s.loading d').declaredAs d' site text = [] := by
  rw [declaredAs, hadds.classifiers_eq, List.filter_eq_nil_iff]
  intro u hu
  obtain ⟨i, hi, rfl⟩ := List.mem_map.1 hu
  have hid : d'.id i = d.id i := by rw [Document.id, hadds.file_eq, Document.id]
  have hown : s.catalog.document? (d.id i).file = some d := h.document?_own
  obtain ⟨content, hc⟩ := h.loaded.exists_content?_of_mem_classifiers hown hi
  have hnone := List.filter_eq_nil_iff.1 h.meanings_eq_nil.2 (d.id i) (List.mem_map_of_mem hi)
  have hmeans := h.means_loading hadds hc none
  rw [Option.none_or, Option.none_or] at hmeans
  rw [hid, hmeans]
  exact hnone

include hdrafted

/-- The items that were imported come to what they came to. -/
theorem targetAt?_loading {item : LocalId} {rename : Option String}
    (hitem : (item, rename) ∈ d.importItems) :
    (s.loading d').targetAt? (d'.id item) = s.targetAt? (d.id item) := by
  have hfiles := h.loaded.files_nodup
  have hown := h.document?_own
  have hid : d'.id item = d.id item := by rw [Document.id, hadds.file_eq, Document.id]
  obtain ⟨r, hr⟩ := Document.content?_of_mem_importItems hitem
  have hn : s.catalog.content? (d.id item) = some (.importItem r rename) :=
    (Catalog.content?_id hown item).trans hr
  obtain ⟨p, r', hp, hc⟩ := h.loaded.exists_importClause hn
  have hn' := hadds.content?_insert hfiles hown hn
  have hp' := (hadds.parent?_insert hfiles hown hn).trans hp
  have hc' := hadds.content?_insert hfiles hown hc
  rw [hid, targetAt?, targetAt?, resolutionAt_importItem (n := d.id item) h.loaded hown hn hp hc,
    resolutionAt_importItem (n := d.id item) (h.loaded.insert hdrafted)
      (h.document?_loading hadds) hn' hp' hc', hadds.name_eq]
  split
  · rfl
  · rename_i hne
    rw [h.documentNamed?_loading hadds hne]

/-- The item that is added comes to the declaration. -/
theorem targetAt?_importing : (s.loading d').targetAt? (d'.id (d.size + 1)) = some t := by
  obtain ⟨range, hclause⟩ := hadds.clause
  obtain ⟨range', hitem⟩ := hadds.item
  have hd' := h.document?_loading hadds
  have hown : (s.loading d').catalog.document? (d'.id (d.size + 1)).file = some d' := by
    rw [Document.id, hadds.file_eq]
    exact hd'
  have hp : (s.loading d').catalog.parent? (d'.id (d.size + 1)) = some (d'.id d.size) := by
    rw [Catalog.parent?_eq hown]
    show (d'.parent? (d.size + 1)).map _ = _
    rw [hadds.parent?_item]
    rfl
  have htarget : e.id t.index = t := by
    rw [Document.id, Catalog.document?_eq_some h.source]
  rw [targetAt?_eq_some_iff, resolutionAt_importItem (h.loaded.insert hdrafted) hown
    ((Catalog.content?_id hd' _).trans hitem) hp ((Catalog.content?_id hd' _).trans hclause),
    hadds.name_eq, if_neg h.name_ne, h.documentNamed?_loading hadds h.name_ne, h.documentNamed?_eq]
  show (Scope.ofDeclared e.namedClassifiers).lookup text = .found t
  rw [Scope.lookup_ofDeclared, Document.lookup_namedClassifiers, h.first, Option.map_some, htarget]
  rfl

/-- What they come to is still not meant by the text. -/
theorem filter_targetAt?_loading {item : LocalId} {rename : Option String}
    (hitem : (item, rename) ∈ d.importItems) :
    (((s.loading d').targetAt? (d'.id item)).filter fun u ↦ (s.loading d').catalog.means site text
      (rename.or ((s.loading d').catalog.name? u)) u) = none := by
  have hnone : ((s.targetAt? (d.id item)).filter fun u ↦
      s.catalog.means site text (rename.or (s.catalog.name? u)) u) = none :=
    List.filterMap_eq_nil_iff.1 h.meanings_eq_nil.1 _ hitem
  rw [h.targetAt?_loading hadds hdrafted hitem]
  cases hu : s.targetAt? (d.id item) with
  | none => rfl
  | some u =>
    obtain ⟨e', r, he', -, -, -, hmem⟩ :=
      exists_imports_of_importItem h.loaded h.document?_own hitem hu
    obtain ⟨k, hk, -⟩ := h.loaded.isClassifier_of_mem_namedClassifiers he' hmem
    obtain ⟨content, hc, -⟩ := Catalog.exists_content?_of_kind? hk
    rw [hu] at hnone
    rw [← hnone, Option.filter_some, Option.filter_some, h.means_loading hadds hc]

/-- What is imported by the text is the declaration, if the text can mean it. -/
theorem importedMeanings_loading : (s.loading d').importedMeanings d' site text =
    if s.catalog.means site text (some text) t then [t] else [] := by
  obtain ⟨content, hc, -⟩ := h.exists_admits
  rw [importedMeanings, hadds.importItems_eq (h.loaded.tree h.document), List.filterMap_append]
  refine (congrArg (· ++ _) (List.filterMap_eq_nil_iff.2 fun x hx ↦
    h.filter_targetAt?_loading hadds hdrafted hx)).trans ?_
  rw [List.nil_append, List.filterMap_cons]
  dsimp only
  rw [h.targetAt?_importing hadds hdrafted, Option.filter_some, h.means_loading hadds hc,
    h.name?_eq, Option.none_or]
  cases s.catalog.means site text (some text) t <;> rfl

end

end ImportOffer

/-- **An import that is offered.** Where a reference that comes to nothing points to a declaration
that an import can reach, the import of the declaration by its name is accepted behind everything
that the document declares, nodes keep their places, and in the next generation the reference comes
to the declaration, unless it is that of an instance and the declaration has another external id.
Then it comes to nothing as before. -/
theorem resolutionAt_of_importOffer (s : Snapshot) {d e : Document} {n t : NodeId} {site : Site}
    {text : String} (h : s.ImportOffer d n site text e t) {edits : List Edit}
    {outcomes : List Outcome}
    (hedits : Document.ofEdits? n.file d.name edits = .ok (d, outcomes)) :
    ∃ d', Document.ofEdits? n.file d.name (edits ++ [.importing e.name text]) =
        .ok (d', outcomes ++ [.declared d.size]) ∧
      (∀ i < d.size, d'.content? i = d.content? i) ∧
      (s.loading d').catalog.generation = s.catalog.generation.next ∧
      ((site = .instanceEntity → s.catalog.externalId? t = some text) →
        (s.loading d').resolutionAt n = .found t) ∧
      (¬ (site = .instanceEntity → s.catalog.externalId? t = some text) →
        (s.loading d').resolutionAt n = .notFound) := by
  obtain ⟨d', hedits', hadds⟩ := h.exists_addsImport hedits
  have hdrafted : d'.Drafted := ⟨_, _, _, _, hedits'⟩
  obtain ⟨content, r, hn, hr, rfl⟩ := h.reference
  have hfiles := h.loaded.files_nodup
  have hfile : d.file = n.file := Catalog.document?_eq_some h.document
  have hloaded : (s.loading d').catalog.Loaded := h.loaded.insert hdrafted
  have hd' : (s.loading d').catalog.document? n.file = some d' := by
    rw [← hfile]
    exact h.document?_loading hadds
  have hown : (s.loading d').catalog.document? d'.file = some d' := by
    rw [hadds.file_eq, hfile]
    exact hd'
  have hn' : (s.loading d').catalog.content? n = some content :=
    hadds.content?_insert hfiles h.document?_own hn
  obtain ⟨scope, -, hlookup, hmatching⟩ := matching_eq hloaded hd' hn' hr h.namesClassifier
  have hdeclared : ((s.loading d').declaredAs d' site r.text).Nodup := nodup_declaredAs hloaded hown
  have hdisjoint : ((s.loading d').importedMeanings d' site r.text).Disjoint
      ((s.loading d').declaredAs d' site r.text) :=
    disjoint_importedMeanings_declaredAs hloaded hown
  have hnone : (s.loading d').declaredAs d' site r.text = [] := h.declaredAs_loading hadds
  have himported := h.importedMeanings_loading hadds hdrafted
  obtain ⟨admitted, hc, hadmits⟩ := h.exists_admits
  have hmeans : s.catalog.means site r.text (some r.text) t = true ↔
      (site = .instanceEntity → s.catalog.externalId? t = some r.text) :=
    Catalog.means_iff_of_admits hc hadmits h.namesClassifier
  refine ⟨d', hedits', fun i hi ↦ hadds.content?_eq hi, rfl, fun hid ↦ ?_, fun hid ↦ ?_⟩
  · rw [if_pos (hmeans.2 hid)] at himported
    rw [hlookup, Scope.lookup_eq_found_iff_of_matching hmatching hdeclared hdisjoint, himported]
    exact .inr ⟨rfl, hnone⟩
  · rw [if_neg fun htrue ↦ hid (hmeans.1 htrue)] at himported
    rw [hlookup, Scope.lookup_eq_notFound_iff_of_matching hmatching hdeclared hdisjoint, himported]
    exact ⟨rfl, hnone⟩

end Snapshot

end Classes

namespace Snapshot

/-- A document with an entity that has another external id than its name. -/
def declaringWheel : Document :=
  .drafting ⟨0⟩ "parts" [.declare (.entity ⟨"Wheel", some "w", []⟩)]

/-- A member whose type is named by that name. -/
def typedByWheel : List Edit :=
  [.declare (.entity ⟨"Car", none, [⟨"wheel", .relation false, .entity "Wheel",
    ⟨none, none, false⟩, false, false, none⟩]⟩)]

/-- An instance whose entity is named by that name. -/
def instantiatingWheel : List Edit := [.declare (.instantiation ⟨"spare", "Wheel", []⟩)]

/-- That entity, and a document that does not import it. -/
def besideWheel (edits : List Edit) : Snapshot :=
  .ofDocuments [declaringWheel, .drafting ⟨1⟩ "garage" edits]

theorem loaded_besideWheel (edits : List Edit) : (besideWheel edits).catalog.Loaded := by
  refine .ofDocuments fun d hd ↦ ?_
  rcases List.mem_pair.1 hd with rfl | rfl
  · exact Document.drafted_drafting _ _ (by decide)
  · exact Document.drafted_drafting _ _ (by decide)

theorem documents_besideWheel (edits : List Edit) : (besideWheel edits).catalog.documents =
    [declaringWheel, .drafting ⟨1⟩ "garage" edits] := by
  simp [besideWheel, Snapshot.ofDocuments, Catalog.ofDocuments, Catalog.insert, Catalog.empty,
    declaringWheel, Document.file_drafting]

/-- The entity is offered wherever a reference by its name comes to nothing. -/
theorem importOffer_besideWheel {edits : List Edit} {n : NodeId} {site : Site}
    (hfile : n.file = ⟨1⟩)
    (hreference : ∃ content r, (besideWheel edits).catalog.content? n = some content ∧
      content.reference? = some (site, r) ∧ r.text = "Wheel")
    (hsite : site.namesClassifier = true)
    (hnotFound : (besideWheel edits).resolutionAt n = .notFound)
    (hrelated : ∃ x ∈ (besideWheel edits).evaluate ((besideWheel edits).check n.file), x.node = n ∧
      x.code = some "linking-error" ∧ ∃ y ∈ x.related, y.node = ⟨⟨0⟩, 1⟩) :
    (besideWheel edits).ImportOffer (.drafting ⟨1⟩ "garage" edits) n site "Wheel" declaringWheel
      ⟨⟨0⟩, 1⟩ where
  loaded := loaded_besideWheel edits
  document := by
    have hmem : Document.drafting ⟨1⟩ "garage" edits ∈ (besideWheel edits).catalog.documents := by
      simp [documents_besideWheel]
    have hd := (loaded_besideWheel edits).document?_of_mem hmem
    rw [Document.file_drafting] at hd
    rw [hfile]
    exact hd
  reference := hreference
  namesClassifier := hsite
  notFound := hnotFound
  related := hrelated
  source := by
    have hmem : declaringWheel ∈ (besideWheel edits).catalog.documents := by
      simp [documents_besideWheel]
    exact (loaded_besideWheel edits).document?_of_mem hmem
  unique := by
    intro d hd hname
    rw [documents_besideWheel] at hd
    rcases List.mem_pair.1 hd with rfl | rfl
    · rfl
    · rw [Document.name_drafting] at hname
      exact absurd hname (by decide)
  name_ne := by
    rw [Document.name_drafting]
    decide
  first := by decide

/-- The type of a member comes to the entity once that is imported. -/
theorem resolutionAt_of_importOffer_ofTypedByWheel :
    (besideWheel typedByWheel).ImportOffer (.drafting ⟨1⟩ "garage" typedByWheel) ⟨⟨1⟩, 3⟩
        .entityType "Wheel" declaringWheel ⟨⟨0⟩, 1⟩ ∧
      Document.ofEdits? ⟨1⟩ "garage" typedByWheel =
        .ok (.drafting ⟨1⟩ "garage" typedByWheel, [.declared 1]) ∧
      ∃ d', Document.ofEdits? ⟨1⟩ "garage" (typedByWheel ++ [.importing "parts" "Wheel"]) =
          .ok (d', [.declared 1, .declared 4]) ∧
        ((besideWheel typedByWheel).loading d').resolutionAt ⟨⟨1⟩, 3⟩ = .found ⟨⟨0⟩, 1⟩ := by
  have hoffer : (besideWheel typedByWheel).ImportOffer (.drafting ⟨1⟩ "garage" typedByWheel)
      ⟨⟨1⟩, 3⟩ .entityType "Wheel" declaringWheel ⟨⟨0⟩, 1⟩ :=
    importOffer_besideWheel rfl ⟨_, _, rfl, rfl, rfl⟩ rfl (by decide) (by decide)
  have hedits : Document.ofEdits? ⟨1⟩ "garage" typedByWheel =
      .ok (.drafting ⟨1⟩ "garage" typedByWheel, [.declared 1]) :=
    Document.ofEdits?_eq_ok ⟨1⟩ typedByWheel (by decide)
  obtain ⟨d', hedits', -, -, hfound, -⟩ :=
    resolutionAt_of_importOffer (besideWheel typedByWheel) hoffer hedits
  exact ⟨hoffer, hedits, d', hedits', hfound nofun⟩

/-- An instance does not come to the entity that is offered to it, even when that is imported. -/
theorem not_found_of_importOffer :
    ¬ ∀ (s : Snapshot) (d e : Document) (n t : NodeId) (site : Site) (text : String)
      (edits : List Edit) (outcomes : List Outcome), s.ImportOffer d n site text e t →
      Document.ofEdits? n.file d.name edits = .ok (d, outcomes) →
      ∃ d' outcomes', Document.ofEdits? n.file d.name (edits ++ [.importing e.name text]) =
          .ok (d', outcomes') ∧ (s.loading d').resolutionAt n = .found t := by
  intro hclaim
  have hoffer : (besideWheel instantiatingWheel).ImportOffer
      (.drafting ⟨1⟩ "garage" instantiatingWheel) ⟨⟨1⟩, 1⟩ .instanceEntity "Wheel" declaringWheel
      ⟨⟨0⟩, 1⟩ :=
    importOffer_besideWheel rfl ⟨_, _, rfl, rfl, rfl⟩ rfl (by decide) (by decide)
  have hedits : Document.ofEdits? ⟨1⟩ "garage" instantiatingWheel =
      .ok (.drafting ⟨1⟩ "garage" instantiatingWheel, [.declared 1]) :=
    Document.ofEdits?_eq_ok ⟨1⟩ instantiatingWheel (by decide)
  obtain ⟨d', outcomes', hedits', hfound⟩ := hclaim _ _ _ _ _ _ _ _ _ hoffer hedits
  rw [(Document.eq_drafting_of_ofEdits? hedits').1] at hfound
  have hnotFound : ((besideWheel instantiatingWheel).loading (.drafting ⟨1⟩ "garage"
      (instantiatingWheel ++ [.importing "parts" "Wheel"]))).resolutionAt ⟨⟨1⟩, 1⟩ = .notFound := by
    decide
  exact Resolution.noConfusion (hnotFound.symm.trans hfound)

end Snapshot

end Schemata
