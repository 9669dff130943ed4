import Schemata.Proofs.Classifiers
import Schemata.Proofs.Types

/-!
# What resolution and typing point to

A target is a file and a place in it, put together where a name is looked up. That it is a node at
all, and one that can stand at its site, has to be seen for each of the eight sites:
`Snapshot.FitsSite` says what fits, and `Snapshot.targets_fit` that nothing else is told. Four of
the sites take their targets from the classifiers of the file
(`Snapshot.isDeclared_of_mem_targets`); the others take them from one document, one entity or one
enumeration, to which other references come.

What is imported is in another document. So only what goes through the imports of a file can be
ambiguous, and then one of the targets is in another file.
-/

namespace Schemata

/-! ### Types by declaration -/

/-- Whether a type by declaration denotes an enumeration or an entity, and is called by its name. -/
def DataType.Denotes (c : Catalog) : DataType → Prop
  | .enumeration n => ∃ name, c.content? n = some (.enumeration name) ∧
      (DataType.enumeration n).name c = name
  | .entity n => ∃ name id, c.content? n = some (.entity name id) ∧
      (DataType.entity n).name c = name
  | .boolean | .integer | .float | .string => True

namespace DataType

variable {c : Catalog} {n : NodeId} {name : String}

theorem denotes_enumeration (h : c.content? n = some (.enumeration name)) :
    (DataType.enumeration n).Denotes c := by
  refine ⟨name, h, ?_⟩
  rw [DataType.name, c.name?_eq_bind, h]
  rfl

theorem denotes_entity {id : Option String} (h : c.content? n = some (.entity name id)) :
    (DataType.entity n).Denotes c := by
  refine ⟨name, id, h, ?_⟩
  rw [DataType.name, c.name?_eq_bind, h]
  rfl

end DataType

namespace Snapshot

section Classes

variable {classes : Text.IdentifierClasses}

variable {s : Snapshot} {n t : NodeId}

/-- The type that is written at a member denotes a declaration. -/
theorem denotes_of_type (h : s.catalog.Loaded) {w : MemberType Reference}
    (hn : s.catalog.content? n = some (.type w)) {type : DataType}
    (htype : s.typeAt? n = some type) : type.Denotes s.catalog := by
  cases w with
  | entity r =>
    rw [typeAt?_entityType h hn] at htype
    obtain ⟨t, -, htype⟩ := Option.bind_eq_some_iff.1 htype
    split at htype
    · rename_i hentity
      obtain ⟨name, id, hc⟩ := Catalog.isEntity_iff.1 hentity
      exact Option.some.inj htype ▸ DataType.denotes_entity hc
    · cases htype
  | enumeration r =>
    rw [typeAt?_enumerationType h hn] at htype
    obtain ⟨t, ht, rfl⟩ := Option.map_eq_some_iff.1 htype
    obtain ⟨name, hc⟩ := exists_enumeration_of_enumerationType hn ht
    exact DataType.denotes_enumeration hc
  | boolean | integer | float | string =>
    rw [typeAt?_eq h, infer, hn] at htype
    obtain rfl := Option.some.inj htype
    trivial

/-- And so does the type of a member, which is the one written there. -/
theorem denotes_of_member (h : s.catalog.Loaded) {m : Member}
    (hn : s.catalog.content? n = some (.member m)) {type : DataType}
    (htype : s.typeAt? n = some type) : type.Denotes s.catalog := by
  obtain ⟨t, w, hw, -⟩ := h.exists_memberType hn
  rw [typeAt?_member h hn hw] at htype
  exact denotes_of_type h (Catalog.content?_of_memberType? hw) htype

/-- A declared literal has its enumeration as its type. -/
theorem denotes_of_declaredLiteral (h : s.catalog.Loaded) {name : String}
    (hn : s.catalog.content? n = some (.literal name)) {type : DataType}
    (htype : s.typeAt? n = some type) : type.Denotes s.catalog := by
  rw [typeAt?_declaredLiteral h hn] at htype
  obtain ⟨p, hp, rfl⟩ := Option.map_eq_some_iff.1 htype
  obtain ⟨p', name', hp', hc⟩ := h.exists_enumeration hn
  obtain rfl := Option.some.inj (hp.symm.trans hp')
  exact DataType.denotes_enumeration hc

/-- Every type by declaration denotes an enumeration or an entity. -/
theorem denotes_of_typeAt? (h : s.catalog.Loaded) {type : DataType}
    (htype : s.typeAt? n = some type) : type.Denotes s.catalog := by
  cases hn : s.catalog.content? n with
  | none =>
    rw [typeAt?_eq h, infer, hn] at htype
    cases htype
  | some content =>
    cases content with
    | type w => exact denotes_of_type h hn htype
    | member m => exact denotes_of_member h hn htype
    | literal name => exact denotes_of_declaredLiteral h hn htype
    | assignment r =>
      rw [typeAt?_assignment h hn] at htype
      obtain ⟨member, hm, htype⟩ := Option.bind_eq_some_iff.1 htype
      obtain ⟨-, -, -, -, -, -, m, hc⟩ := exists_member_of_assignment h hn hm
      exact denotes_of_member h hc htype
    | instantiation name r =>
      rw [typeAt?_instantiation h hn] at htype
      obtain ⟨t, ht, rfl⟩ := Option.map_eq_some_iff.1 htype
      obtain ⟨name, id, hc⟩ := exists_entity_of_instantiation hn ht
      exact DataType.denotes_entity hc
    | entity name id =>
      rw [typeAt?_eq h, infer, hn] at htype
      exact Option.some.inj htype ▸ DataType.denotes_entity hn
    | enumeration name =>
      rw [typeAt?_eq h, infer, hn] at htype
      exact Option.some.inj htype ▸ DataType.denotes_enumeration hn
    | value x =>
      cases x with
      | literal r =>
        rw [typeAt?_literal h hn] at htype
        obtain ⟨t, ht, htype⟩ := Option.bind_eq_some_iff.1 htype
        obtain ⟨-, -, -, -, -, -, -, -, name, hc⟩ := exists_literal_of_literal h hn ht
        rw [← typeAt?_declaredLiteral h hc] at htype
        exact denotes_of_declaredLiteral h hc htype
      | contained r =>
        rw [typeAt?_contained h hn] at htype
        obtain ⟨t, ht, rfl⟩ := Option.map_eq_some_iff.1 htype
        obtain ⟨name, id, hc⟩ := exists_entity_of_contained hn ht
        exact DataType.denotes_entity hc
      | _ =>
        rw [typeAt?_eq h, infer, hn] at htype
        obtain rfl := Option.some.inj htype
        trivial
    | root | importClause | importItem | array =>
      rw [typeAt?_eq h, infer, hn] at htype
      cases htype

/-! ### Targets that fit -/

/-- Whether a node is a classifier that a loaded document declares. -/
def IsDeclared (s : Snapshot) (t : NodeId) : Prop :=
  ∃ e, s.catalog.document? t.file = some e ∧ t.index ∈ e.classifiers

/-- Whether a node is what a reference of a text can come to at a site. -/
def FitsSite (s : Snapshot) (n : NodeId) (text : String) (t : NodeId) : Site → Prop
  | .importSource => ∃ d e, s.catalog.document? n.file = some d ∧
      s.catalog.document? t.file = some e ∧ t = e.rootId ∧ t.file ≠ n.file ∧ e.name ≠ d.name
  | .importItem => ∃ clause e, s.catalog.parent? n = some clause ∧
      s.resolutionAt clause = .found e.rootId ∧ s.catalog.document? t.file = some e ∧
      t.index ∈ e.classifiers
  | .entityType => s.IsDeclared t
  | .enumerationType => s.IsDeclared t ∧ ∃ name, s.catalog.content? t = some (.enumeration name)
  | .containedValue => s.IsDeclared t ∧ ∃ name id, s.catalog.content? t = some (.entity name id)
  | .instanceEntity => s.IsDeclared t ∧
      ∃ name, s.catalog.content? t = some (.entity name (some text))
  | .assignedMember => ∃ owner entity, s.catalog.parent? n = some owner ∧
      s.resolutionAt owner = .found entity ∧ t ∈ s.catalog.children entity ∧
      ∃ m, s.catalog.content? t = some (.member m)
  | .literalValue => ∃ member type r enumeration, s.memberAt? n = some member ∧
      s.catalog.memberType? member = some (type, .enumeration r) ∧
      s.resolutionAt type = .found enumeration ∧ t ∈ s.catalog.children enumeration ∧
      ∃ name, s.catalog.content? t = some (.literal name)

variable {site : Site} {content : Content Reference} {r : Reference}

theorem IsDeclared.of_mem_namedClassifiers {e : Document} {name : String}
    (he : s.catalog.document? t.file = some e) (ht : (name, t) ∈ e.namedClassifiers) :
    s.IsDeclared t := by
  obtain ⟨i, hi, -, rfl⟩ := Document.mem_namedClassifiers_iff.1 ht
  exact ⟨e, he, hi⟩

/-- What fits is a node. -/
theorem FitsSite.exists_content? (h : s.catalog.Loaded) {text : String} {site : Site}
    (ht : s.FitsSite n text t site) : ∃ content, s.catalog.content? t = some content := by
  cases site with
  | importSource =>
    obtain ⟨-, e, -, he, rfl, -⟩ := ht
    exact ⟨.root e.name, Catalog.content?_eq (n := e.rootId) he⟩
  | importItem =>
    obtain ⟨-, e, -, -, he, hclassifier⟩ := ht
    exact h.exists_content?_of_mem_classifiers he hclassifier
  | entityType =>
    obtain ⟨e, he, hclassifier⟩ := ht
    exact h.exists_content?_of_mem_classifiers he hclassifier
  | enumerationType =>
    obtain ⟨-, name, hc⟩ := ht
    exact ⟨_, hc⟩
  | containedValue =>
    obtain ⟨-, name, id, hc⟩ := ht
    exact ⟨_, hc⟩
  | instanceEntity =>
    obtain ⟨-, name, hc⟩ := ht
    exact ⟨_, hc⟩
  | assignedMember =>
    obtain ⟨-, -, -, -, -, m, hc⟩ := ht
    exact ⟨_, hc⟩
  | literalValue =>
    obtain ⟨-, -, -, -, -, -, -, -, name, hc⟩ := ht
    exact ⟨_, hc⟩

/-- At a site that names a classifier, the targets are declared somewhere and can be meant there. -/
theorem isDeclared_of_mem_targets (h : s.catalog.Loaded) (hn : s.catalog.content? n = some content)
    (hr : content.reference? = some (site, r)) (hsite : site.namesClassifier = true)
    (ht : t ∈ (s.resolutionAt n).targets) :
    s.IsDeclared t ∧ ∃ name?, s.catalog.means site r.text name? t = true := by
  obtain ⟨d, hd⟩ := Catalog.exists_document_of_content? hn
  have hown : s.catalog.document? d.file = some d := by
    rw [Catalog.document?_eq_some hd]
    exact hd
  obtain ⟨scope, -, hlookup, hmatching⟩ := matching_eq h hd hn hr hsite
  rw [hlookup] at ht
  obtain ⟨e, he, hname, rfl⟩ := Scope.mem_meanings_iff.1 (Scope.mem_meanings_of_mem_targets ht)
  have he := hmatching ▸ Scope.mem_matching_iff.2 ⟨he, hname⟩
  rcases List.mem_append.1 he with he | he
  · obtain ⟨t, himported, rfl⟩ := List.mem_map.1 he
    obtain ⟨item, rename, hitem, htarget, hmeans⟩ := mem_importedMeanings_iff.1 himported
    obtain ⟨e, r', he, -, -, -, hmem⟩ :=
      exists_imports_of_importItem h hown hitem htarget
    exact ⟨.of_mem_namedClassifiers he hmem, _, hmeans⟩
  · obtain ⟨t, hdeclared, rfl⟩ := List.mem_map.1 he
    obtain ⟨hmem, hmeans⟩ := List.mem_filter.1 hdeclared
    obtain ⟨i, hi, rfl⟩ := List.mem_map.1 hmem
    exact ⟨⟨d, hown, hi⟩, _, hmeans⟩

/-- So the targets fit, found or ambiguous. -/
theorem fitsSite_of_namesClassifier (h : s.catalog.Loaded)
    (hn : s.catalog.content? n = some content) (hr : content.reference? = some (site, r))
    (hsite : site.namesClassifier = true) (ht : t ∈ (s.resolutionAt n).targets) :
    s.FitsSite n r.text t site := by
  obtain ⟨hdeclared, name?, hmeans⟩ := isDeclared_of_mem_targets h hn hr hsite ht
  obtain ⟨heligible, hkey⟩ := Bool.and_eq_true_iff.1 hmeans
  cases site with
  | entityType => exact hdeclared
  | enumerationType => exact ⟨hdeclared, Catalog.isEnumeration_iff.1 heligible⟩
  | containedValue => exact ⟨hdeclared, Catalog.isEntity_iff.1 heligible⟩
  | instanceEntity =>
    exact ⟨hdeclared, Catalog.exists_entity_of_externalId? (beq_iff_eq.1 hkey)⟩
  | importSource | importItem | assignedMember | literalValue => cases hsite

/-- What is found at any other site fits as well. -/
theorem fitsSite_of_found (h : s.catalog.Loaded) (hn : s.catalog.content? n = some content)
    (hr : content.reference? = some (site, r)) (ht : s.resolutionAt n = .found t) :
    s.FitsSite n r.text t site := by
  have htarget : s.targetAt? n = some t := targetAt?_eq_some_iff.2 ht
  match content, hr with
  | .importClause r, rfl =>
    obtain ⟨d, hd⟩ := Catalog.exists_document_of_content? hn
    obtain ⟨e, he, hroot, hname⟩ := name_ne_of_importClause h.files_nodup hd hn htarget
    refine ⟨d, e, hd, he, hroot, fun hfile ↦ hname ?_, hname⟩
    rw [hfile, hd, Option.some.injEq] at he
    rw [he]
  | .importItem r rename, rfl =>
    obtain ⟨clause, e, hp, -, hclause, he, -, hmem⟩ := exists_document_of_importItem h hn htarget
    obtain ⟨i, hi, -, rfl⟩ := Document.mem_namedClassifiers_iff.1 hmem
    exact ⟨clause, e, hp, targetAt?_eq_some_iff.1 hclause, he, hi⟩
  | .assignment r, rfl =>
    obtain ⟨owner, entity, hp, hentity, hchild, -, hm⟩ := exists_member_of_assignment h hn htarget
    exact ⟨owner, entity, hp, targetAt?_eq_some_iff.1 hentity, hchild, hm⟩
  | .value (.literal r), rfl =>
    obtain ⟨member, type, r', enumeration, hm, hw, henumeration, hp, hc⟩ :=
      exists_literal_of_literal h hn htarget
    exact ⟨member, type, r', enumeration, hm, hw, targetAt?_eq_some_iff.1 henumeration,
      h.mem_children_iff.2 hp, hc⟩
  | .type (.entity r), rfl | .type (.enumeration r), rfl | .instantiation name r, rfl
  | .value (.contained r), rfl =>
    exact fitsSite_of_namesClassifier h hn rfl rfl (by rw [ht]; exact List.mem_singleton_self t)

/-! ### Ambiguous references -/

/-- Only what names a classifier has imported candidates. -/
theorem imported_eq_false_of_candidatesAt (h : s.catalog.Loaded)
    (hn : s.catalog.content? n = some content) (hr : content.reference? = some (site, r))
    (hsite : site.namesClassifier = false) {scope : Scope} (hs : s.candidatesAt n = some scope)
    {e : ScopeEntry} (he : e ∈ scope.entries) : e.imported = false := by
  match content, hr with
  | .importClause r, rfl =>
    rw [candidatesAt_importClause hn] at hs
    obtain ⟨d, -, rfl⟩ := Option.map_eq_some_iff.1 hs
    obtain ⟨e', -, -, rfl⟩ := Catalog.mem_entries_documentScope_iff.1 he
    rfl
  | .importItem r rename, rfl =>
    obtain ⟨p, r', hp, hc⟩ := h.exists_importClause hn
    rw [candidatesAt_importItem hn hp] at hs
    obtain ⟨source, -, hs⟩ := Option.bind_eq_some_iff.1 hs
    obtain ⟨d, -, rfl⟩ := Option.map_eq_some_iff.1 hs
    exact Scope.imported_of_mem_ofDeclared he
  | .assignment r, rfl =>
    obtain ⟨p, name, r', hp, hc⟩ := h.exists_instantiation hn
    rw [candidatesAt_assignment hn hp] at hs
    obtain ⟨entity, -, hs⟩ := Option.bind_eq_some_iff.1 hs
    split at hs
    · exact Scope.imported_of_mem_ofDeclared (Option.some.inj hs ▸ he)
    · cases hs
  | .value (.literal r), rfl =>
    cases hm : s.memberAt? n with
    | none =>
      rw [candidatesAt_literal_of_unbound hn hm] at hs
      cases hs
    | some member =>
      obtain ⟨m, hc⟩ := exists_member_of_memberAt? h (Catalog.kind?_of_content? hn) rfl hm
      obtain ⟨type, w, hw, -⟩ := h.exists_memberType hc
      cases w with
      | enumeration r' =>
        rw [candidatesAt_literal_of_enumeration hn hm hc hw] at hs
        obtain ⟨enumeration, -, hs⟩ := Option.bind_eq_some_iff.1 hs
        split at hs
        · exact Scope.imported_of_mem_ofDeclared (Option.some.inj hs ▸ he)
        · cases hs
      | _ =>
        rw [candidatesAt_literal_of_other hn hm hc hw nofun, Option.some.injEq] at hs
        rw [← hs] at he
        cases he
  | .type (.entity r), rfl | .type (.enumeration r), rfl | .instantiation name r, rfl
  | .value (.contained r), rfl => cases hsite

/-- An ambiguous reference names a classifier, and one of the targets is in another file. -/
theorem exists_imported_of_ambiguous (h : s.catalog.Loaded)
    (hn : s.catalog.content? n = some content) (hr : content.reference? = some (site, r))
    {ts : List NodeId} (hts : s.resolutionAt n = .ambiguous ts) :
    site.namesClassifier = true ∧ ts.Nodup ∧ 2 ≤ ts.length ∧ ∃ t ∈ ts, t.file ≠ n.file := by
  have hresolution := resolutionAt_of_reference h hn hr
  rw [hts] at hresolution
  cases hs : s.candidatesAt n with
  | none =>
    rw [hs] at hresolution
    cases hresolution
  | some scope =>
    rw [hs] at hresolution
    have hlookup : scope.lookup r.text = .ambiguous ts := hresolution.symm
    have hsite : site.namesClassifier = true := by
      by_contra hsite
      refine Scope.lookup_ne_ambiguous (fun e he ↦ ?_) hlookup
      exact imported_eq_false_of_candidatesAt h hn hr (Bool.eq_false_iff.2 hsite) hs he
    obtain ⟨rfl, hlength, e, he, himported⟩ := Scope.lookup_eq_ambiguous_iff.1 hlookup
    refine ⟨hsite, scope.nodup_meanings r.text, hlength, e.target, ?_, ?_⟩
    · obtain ⟨he, hname⟩ := Scope.mem_matching_iff.1 he
      exact Scope.mem_meanings_iff.2 ⟨e, he, hname, rfl⟩
    · obtain ⟨d, hd⟩ := Catalog.exists_document_of_content? hn
      have hfile : d.file = n.file := Catalog.document?_eq_some hd
      obtain ⟨scope', hs', -, hmatching⟩ := matching_eq h hd hn hr hsite
      obtain rfl := Option.some.inj (hs.symm.trans hs')
      rw [hmatching] at he
      rcases List.mem_append.1 he with he | he
      · obtain ⟨t, ht, rfl⟩ := List.mem_map.1 he
        obtain ⟨-, -, -, hne⟩ := exists_imports_of_mem_importedMeanings h (hfile ▸ hd) ht
        exact hfile ▸ hne
      · obtain ⟨t, -, rfl⟩ := List.mem_map.1 he
        cases himported

/-- **What resolution and typing point to.** Whatever node is asked about, what its reference comes
to or could mean are nodes of loaded documents that fit the site of the reference. Ambiguous are
only references that name a classifier, among two or more targets, one of which is in another file.
And a type by declaration denotes an enumeration or an entity, by whose name the type is called. -/
theorem targets_fit (s : Snapshot) (h : s.catalog.Loaded) (n : NodeId) :
    (∀ t ∈ (s.resolutionAt n).targets, ∃ content site r, s.catalog.content? n = some content ∧
      content.reference? = some (site, r) ∧ (∃ content', s.catalog.content? t = some content') ∧
      s.FitsSite n r.text t site) ∧
    (∀ ts, s.resolutionAt n = .ambiguous ts → ∃ content site r,
      s.catalog.content? n = some content ∧ content.reference? = some (site, r) ∧
      site.namesClassifier = true ∧ ts.Nodup ∧ 2 ≤ ts.length ∧ ∃ t ∈ ts, t.file ≠ n.file) ∧
    ∀ type, s.typeAt? n = some type → type.Denotes s.catalog := by
  -- without a reference nothing is resolved
  have hreference (hne : s.resolutionAt n ≠ .blocked) : ∃ content site r,
      s.catalog.content? n = some content ∧ content.reference? = some (site, r) := by
    cases hn : (s.catalog.content? n).bind (·.reference?) with
    | none => exact absurd (resolutionAt_of_no_reference hn) hne
    | some x =>
      obtain ⟨content, hn, hr⟩ := Option.bind_eq_some_iff.1 hn
      exact ⟨content, x.1, x.2, hn, hr⟩
  refine ⟨fun t ht ↦ ?_, fun ts hts ↦ ?_, fun type htype ↦ denotes_of_typeAt? h htype⟩
  · obtain ⟨content, site, r, hn, hr⟩ := hreference fun hblocked ↦ by
      rw [hblocked] at ht
      cases ht
    have hfits : s.FitsSite n r.text t site := by
      cases hresolution : s.resolutionAt n with
      | found t' =>
        rw [hresolution] at ht
        exact List.mem_singleton.1 ht ▸ fitsSite_of_found h hn hr hresolution
      | ambiguous ts =>
        have hsite := (exists_imported_of_ambiguous h hn hr hresolution).1
        exact fitsSite_of_namesClassifier h hn hr hsite ht
      | notFound | blocked =>
        rw [hresolution] at ht
        cases ht
    exact ⟨content, site, r, hn, hr, hfits.exists_content? h, hfits⟩
  · obtain ⟨content, site, r, hn, hr⟩ := hreference fun hblocked ↦ by
      rw [hblocked] at hts
      cases hts
    exact ⟨content, site, r, hn, hr, exists_imported_of_ambiguous h hn hr hts⟩

end Classes

theorem resolutionAt_ofCollidingImport :
    ofCollidingImport.resolutionAt ⟨⟨1⟩, 6⟩ = .ambiguous [⟨⟨0⟩, 1⟩, ⟨⟨1⟩, 3⟩] := by
  decide

/-- An entity that is imported and one of the same name beside the import are both declared. -/
theorem targets_fit_ofCollidingImport :
    ofCollidingImport.catalog.Loaded ∧
      ofCollidingImport.resolutionAt ⟨⟨1⟩, 6⟩ = .ambiguous [⟨⟨0⟩, 1⟩, ⟨⟨1⟩, 3⟩] ∧
      ofCollidingImport.IsDeclared ⟨⟨0⟩, 1⟩ ∧ ofCollidingImport.IsDeclared ⟨⟨1⟩, 3⟩ := by
  have hfit := (targets_fit ofCollidingImport loaded_ofCollidingImport ⟨⟨1⟩, 6⟩).1
  rw [resolutionAt_ofCollidingImport] at hfit
  have hdeclared {t : NodeId} (ht : t ∈ [(⟨⟨0⟩, 1⟩ : NodeId), ⟨⟨1⟩, 3⟩]) :
      ofCollidingImport.IsDeclared t := by
    obtain ⟨content, site, r, hn, hr, -, ht⟩ := hfit t ht
    obtain rfl := Option.some.inj hn
    obtain ⟨rfl, rfl⟩ := Prod.mk.inj (Option.some.inj hr)
    exact ht
  exact ⟨loaded_ofCollidingImport, resolutionAt_ofCollidingImport, hdeclared (by decide),
    hdeclared (by decide)⟩

end Snapshot

end Schemata
