import Schemata.Proofs.Imports

/-!
# Which classifier a name means

Four kinds of site name a classifier from within a file: the two types of members, a contained value
and an instance. They differ in which classifiers can be meant there (`Catalog.eligible`) and in
what these are called (`Catalog.key?`): an instance calls its entity by the external id, and the
others use the names that go in the file.

Both differences leave the scope of the file in its order. So what is said by a text at such a site
comes from two lists, the imported meanings and the declared ones (`Snapshot.importedAs`,
`Snapshot.declaredAs`), and `Snapshot.matching_candidates` says that the scope has nothing else. The
two lists are disjoint since what is imported stands in other files.
-/

namespace Schemata

/-- Whether a site names a classifier that can be named in its file. -/
def Site.namesClassifier : Site → Bool
  | .entityType | .enumerationType | .containedValue | .instanceEntity => true
  | _ => false

namespace Catalog

variable (c : Catalog) (site : Site)

def isClassifier (n : NodeId) : Bool :=
  match c.content? n with
  | some content => content.isClassifier
  | none => false

/-- Whether a node can be meant at a site that names a classifier. -/
def eligible (t : NodeId) : Bool :=
  match site with
  | .entityType => c.isClassifier t
  | .enumerationType => c.isEnumeration t
  | .containedValue => c.isEntity t
  | .instanceEntity => (c.externalId? t).isSome
  | _ => false

/-- What a node is called at a site, if it goes by `name?` in the file. -/
def key? (name? : Option String) (t : NodeId) : Option String :=
  match site with
  | .instanceEntity => c.externalId? t
  | _ => name?

/-- Whether a text can mean a node at a site, if the node goes by `name?` in the file. -/
def means (text : String) (name? : Option String) (t : NodeId) : Bool :=
  c.eligible site t && c.key? site name? t == some text

/-- The entry that a text has at a site, if the text can mean what a name of the file stands for. -/
def entryAs? (text : String) (e : ScopeEntry) : Option ScopeEntry :=
  if c.means site text (some e.name) e.target then some { e with name := text } else none

variable {c site} {t : NodeId}

/-- A classifier has a name. -/
theorem exists_name?_of_isClassifier (h : c.isClassifier t = true) :
    ∃ name, c.name? t = some name := by
  rw [isClassifier] at h
  split at h
  · rename_i content hc
    rw [name?_eq_bind, hc, Option.bind_some]
    cases content <;> first | exact ⟨_, rfl⟩ | cases h
  · cases h

/-- What can be meant is a classifier. -/
theorem isClassifier_of_eligible (h : c.eligible site t = true) : c.isClassifier t = true := by
  cases site with
  | entityType => exact h
  | enumerationType =>
    obtain ⟨name, hc⟩ := isEnumeration_iff.1 h
    rw [isClassifier, hc]
    rfl
  | containedValue =>
    obtain ⟨name, id, hc⟩ := isEntity_iff.1 h
    rw [isClassifier, hc]
    rfl
  | instanceEntity =>
    obtain ⟨id, hid⟩ := Option.isSome_iff_exists.1 h
    obtain ⟨name, hc⟩ := exists_entity_of_externalId? hid
    rw [isClassifier, hc]
    rfl
  | _ => cases h

/-- A text means nothing that has no name. -/
theorem means_eq_false {text : String} {name? : Option String} (h : c.name? t = none) :
    c.means site text name? t = false := by
  rw [means, Bool.and_eq_false_iff]
  left
  by_contra heligible
  obtain ⟨name, hname⟩ :=
    exists_name?_of_isClassifier (isClassifier_of_eligible (by simpa using heligible))
  rw [h] at hname
  cases hname

/-- What goes by `name?` in the file has an entry of a text if the text can mean it. -/
theorem bind_entryAs? {text : String} {name? : Option String} (h : name? = none → c.name? t = none)
    (imported : Bool) :
    (name?.map (⟨·, t, imported⟩)).bind (c.entryAs? site text) =
      if c.means site text name? t then some ⟨text, t, imported⟩ else none := by
  cases hname : name? with
  | none =>
    rw [means_eq_false (h hname)]
    rfl
  | some name => rfl

/-- Where names go as in the file, the entries of a text are found by leaving out what cannot be
meant. -/
theorem matching_filter {scope : Scope} {keep : ScopeEntry → Bool} {text : String}
    (hkeep : ∀ e ∈ scope.entries, keep e = c.eligible site e.target)
    (hkey : ∀ name? t, c.key? site name? t = name?) :
    (scope.filter keep).matching text = scope.entries.filterMap (c.entryAs? site text) := by
  rw [Scope.matching, Scope.entries_filter, List.filter_filter, ← List.filterMap_eq_filter]
  refine List.filterMap_congr fun e he ↦ ?_
  rw [entryAs?, means, hkey, ← hkeep e he]
  by_cases hname : e.name = text
  · subst hname
    by_cases hkept : keep e = true <;> simp [Option.guard, hkept]
  · simp [Option.guard, hname]

/-- An instance finds its entities by their external ids. -/
theorem matching_byExternalId (scope : Scope) (text : String) :
    (scope.byExternalId c).matching text =
      scope.entries.filterMap (c.entryAs? .instanceEntity text) := by
  rw [Scope.matching, Scope.byExternalId, List.filter_filterMap]
  refine List.filterMap_congr fun e _ ↦ ?_
  rw [entryAs?, means, eligible, key?]
  cases c.externalId? e.target with
  | none => rfl
  | some id => by_cases hid : id = text <;> simp [hid]

end Catalog

namespace Snapshot

section Classes

variable {classes : Text.IdentifierClasses}

variable (s : Snapshot)

/-- What the imports of a document bring to it that a text can mean at a site, in their order. -/
def importedMeanings (d : Document) (site : Site) (text : String) : List NodeId :=
  d.importItems.filterMap fun (item, rename) ↦ (s.targetAt? (d.id item)).filter fun t ↦
    s.catalog.means site text (rename.or (s.catalog.name? t)) t

/-- What a text can mean at a site by way of the imports of a document, each node once. -/
def importedAs (d : Document) (site : Site) (text : String) : List NodeId :=
  (s.importedMeanings d site text).eraseDups

/-- What a text can mean at a site among the classifiers of a document, in their order. -/
def declaredAs (d : Document) (site : Site) (text : String) : List NodeId :=
  (d.classifiers.map d.id).filter fun t ↦ s.catalog.means site text (s.catalog.name? t) t

variable {s} {n t : NodeId} {d : Document} {site : Site} {text : String}

theorem mem_importedMeanings_iff : t ∈ s.importedMeanings d site text ↔
    ∃ item rename, (item, rename) ∈ d.importItems ∧ s.targetAt? (d.id item) = some t ∧
      s.catalog.means site text (rename.or (s.catalog.name? t)) t = true := by
  simp [importedMeanings, Option.filter_eq_some_iff]

theorem file_of_mem_declaredAs (ht : t ∈ s.declaredAs d site text) : t.file = d.file := by
  obtain ⟨i, -, rfl⟩ := List.mem_map.1 (List.mem_filter.1 ht).1
  rfl

/-! ### The two lists -/

/-- What is imported stands in a document that is imported. -/
theorem exists_imports_of_mem_importedMeanings (h : s.catalog.Loaded)
    (hd : s.catalog.document? d.file = some d) (ht : t ∈ s.importedMeanings d site text) :
    ∃ e, s.catalog.document? t.file = some e ∧ s.Imports d e ∧ t.file ≠ d.file := by
  obtain ⟨item, rename, hitem, htarget, -⟩ := mem_importedMeanings_iff.1 ht
  obtain ⟨e, -, he, himports, -⟩ := exists_imports_of_importItem h hd hitem htarget
  exact ⟨e, he, himports, file_ne_of_importItem h hd hitem htarget⟩

theorem disjoint_importedMeanings_declaredAs (h : s.catalog.Loaded)
    (hd : s.catalog.document? d.file = some d) :
    (s.importedMeanings d site text).Disjoint (s.declaredAs d site text) := by
  intro t himported hdeclared
  obtain ⟨-, -, -, hfile⟩ := exists_imports_of_mem_importedMeanings h hd himported
  exact hfile (file_of_mem_declaredAs hdeclared)

theorem nodup_declaredAs (h : s.catalog.Loaded) (hd : s.catalog.document? d.file = some d) :
    (s.declaredAs d site text).Nodup := by
  have hchildren : (d.imports ++ d.classifiers).Nodup := (h.tree hd).children_nodup 0
  have hclassifiers : d.classifiers.Nodup := hchildren.of_append_right
  exact (hclassifiers.map fun i j hij ↦ congrArg NodeId.index hij).filter _

/-! ### What the scope of a site says about a text -/

theorem isClassifier_of_mem_entries (h : s.catalog.Loaded) {file : FileId} {e : ScopeEntry}
    (he : e ∈ (s.scopeIn file).entries) : s.catalog.isClassifier e.target = true := by
  obtain ⟨k, hk, hclassifier⟩ := isClassifier_of_mem_scopeIn h he
  obtain ⟨content, hc, rfl⟩ := Catalog.exists_content?_of_kind? hk
  rw [Catalog.isClassifier, hc]
  cases content <;> first | rfl | cases hclassifier

/-- At each site, the entries of a text are those of the file that the text can mean. -/
theorem matching_candidates (h : s.catalog.Loaded) {content : Content Reference} {r : Reference}
    (hn : s.catalog.content? n = some content) (hr : content.reference? = some (site, r))
    (hsite : site.namesClassifier = true) (text : String) :
    ∃ scope, s.candidatesAt n = some scope ∧
      scope.matching text =
        (s.scopeIn n.file).entries.filterMap (s.catalog.entryAs? site text) := by
  match content, hr with
  | .type (.entity r'), rfl =>
    have hall : (s.scopeIn n.file).filter (fun _ ↦ true) = s.scopeIn n.file := by
      rw [Scope.filter, List.filter_true]
    refine ⟨_, candidatesAt_entityType hn, ?_⟩
    rw [← Catalog.matching_filter (fun e he ↦ (isClassifier_of_mem_entries h he).symm)
      fun _ _ ↦ rfl, hall]
  | .type (.enumeration r'), rfl =>
    exact ⟨_, candidatesAt_enumerationType hn,
      Catalog.matching_filter (fun _ _ ↦ rfl) fun _ _ ↦ rfl⟩
  | .value (.contained r'), rfl =>
    exact ⟨_, candidatesAt_contained hn, Catalog.matching_filter (fun _ _ ↦ rfl) fun _ _ ↦ rfl⟩
  | .instantiation name r', rfl =>
    exact ⟨_, candidatesAt_instantiation hn, Catalog.matching_byExternalId _ text⟩
  | .importClause r', rfl | .importItem r' rename, rfl | .assignment r', rfl
  | .value (.literal r'), rfl => cases hsite

/-- Of the classifiers that can be named in a file, a text means the imported ones and then the
declared ones. -/
theorem filterMap_entries (h : s.catalog.Loaded) (hd : s.catalog.document? d.file = some d) :
    (s.scopeIn d.file).entries.filterMap (s.catalog.entryAs? site text) =
      (s.importedMeanings d site text).map (⟨text, ·, true⟩) ++
        (s.declaredAs d site text).map (⟨text, ·, false⟩) := by
  rw [entries_scopeIn h hd, List.filterMap_append]
  congr 1
  · rw [importedMeanings, List.filterMap_filterMap, List.map_filterMap]
    refine List.filterMap_congr fun x _ ↦ ?_
    obtain ⟨item, rename⟩ := x
    dsimp only
    cases s.targetAt? (d.id item) with
    | none => rfl
    | some t =>
      have hname : rename.or (s.catalog.name? t) = none → s.catalog.name? t = none :=
        fun hor ↦ (Option.or_eq_none_iff.1 hor).2
      rw [Option.bind_some, Catalog.bind_entryAs? hname true, Option.filter_some]
      split <;> rfl
  · rw [declaredAs, Scope.ofDeclared, Document.namedClassifiers, Document.named, List.map_filterMap,
      List.filterMap_filterMap, List.filter_map, List.map_map, ← List.filterMap_eq_map,
      List.filterMap_filter]
    refine List.filterMap_congr fun i _ ↦ ?_
    have hname : s.catalog.name? (d.id i) = d.name? i := Catalog.name?_eq (n := d.id i) hd
    rw [← hname, Option.map_map]
    exact Catalog.bind_entryAs? (fun h ↦ h) false

/-- What a text says at a site that names a classifier: nothing else than its imported meanings and
then its declared ones. -/
theorem matching_eq (h : s.catalog.Loaded) (hd : s.catalog.document? n.file = some d)
    {content : Content Reference} {r : Reference} (hn : s.catalog.content? n = some content)
    (hr : content.reference? = some (site, r)) (hsite : site.namesClassifier = true) :
    ∃ scope, s.candidatesAt n = some scope ∧ s.resolutionAt n = scope.lookup r.text ∧
      scope.matching r.text =
        (s.importedMeanings d site r.text).map (⟨r.text, ·, true⟩) ++
          (s.declaredAs d site r.text).map (⟨r.text, ·, false⟩) := by
  obtain ⟨scope, hs, hmatching⟩ := matching_candidates h hn hr hsite r.text
  have hfile : d.file = n.file := Catalog.document?_eq_some hd
  rw [← hfile, filterMap_entries h (hfile ▸ hd)] at hmatching
  refine ⟨scope, hs, ?_, hmatching⟩
  rw [resolutionAt_of_reference h hn hr, hs]

/-- **Which classifier a name means.** At a site that names a classifier, what the text can mean is
what the imports of the document bring and what the document declares itself, and no node is both.
The reference is not found if there is neither. If nothing is imported it comes to the first
declaration, and if the only meaning is imported to that. In every other case it is ambiguous, and
all meanings are told, the imported ones first. It is never blocked, and what it can come to stands
in its own document or in one that this imports. -/
theorem resolutionAt_classifier (s : Snapshot) (h : s.catalog.Loaded)
    {n : NodeId} {d : Document} (hd : s.catalog.document? n.file = some d)
    {content : Content Reference} (hn : s.catalog.content? n = some content) {site : Site}
    {r : Reference} (hr : content.reference? = some (site, r))
    (hsite : site.namesClassifier = true) :
    let imported := s.importedAs d site r.text
    let declared := s.declaredAs d site r.text
    imported.Nodup ∧ declared.Nodup ∧ imported.Disjoint declared ∧
    (s.resolutionAt n = .notFound ↔ imported = [] ∧ declared = []) ∧
    (∀ t, s.resolutionAt n = .found t ↔
      (imported = [] ∧ declared.head? = some t) ∨ (imported = [t] ∧ declared = [])) ∧
    (∀ ts, s.resolutionAt n = .ambiguous ts ↔
      ts = imported ++ declared ∧ imported ≠ [] ∧ ¬∃ t, imported = [t] ∧ declared = []) ∧
    s.resolutionAt n ≠ .blocked ∧
    ∀ t ∈ (s.resolutionAt n).targets,
      t.file = n.file ∨ ∃ e, s.catalog.document? t.file = some e ∧ s.Imports d e := by
  have hfile : d.file = n.file := Catalog.document?_eq_some hd
  have hown : s.catalog.document? d.file = some d := hfile ▸ hd
  obtain ⟨scope, -, hlookup, hmatching⟩ := matching_eq h hd hn hr hsite
  have hdeclared : (s.declaredAs d site r.text).Nodup := nodup_declaredAs h hown
  have hdisjoint : (s.importedMeanings d site r.text).Disjoint (s.declaredAs d site r.text) :=
    disjoint_importedMeanings_declaredAs h hown
  rw [hlookup]
  refine ⟨nodup_eraseDups _, hdeclared, fun t ht ↦ hdisjoint (List.mem_eraseDups.1 ht),
    Scope.lookup_eq_notFound_iff_of_matching hmatching hdeclared hdisjoint,
    fun t ↦ Scope.lookup_eq_found_iff_of_matching hmatching hdeclared hdisjoint,
    fun ts ↦ Scope.lookup_eq_ambiguous_iff_of_matching hmatching hdeclared hdisjoint,
    Scope.lookup_ne_blocked _ _, fun t ht ↦ ?_⟩
  have hmem := Scope.mem_meanings_of_mem_targets ht
  rw [Scope.meanings_of_matching hmatching hdeclared hdisjoint, List.mem_append,
    List.mem_eraseDups] at hmem
  rcases hmem with himported | hlocal
  · obtain ⟨e, he, himports, -⟩ := exists_imports_of_mem_importedMeanings h hown himported
    exact .inr ⟨e, he, himports⟩
  · exact .inl ((file_of_mem_declaredAs hlocal).trans hfile)

end Classes

/-- A document that imports an entity and declares another of the same name. Place 6 is the type of
a member, named by that name. -/
def collidingImport : Document :=
  .drafting ⟨1⟩ "garage"
    [.declare (.imports ⟨"parts", [⟨"Wheel", none⟩]⟩), .declare (.entity ⟨"Wheel", none, []⟩),
      .declare (.entity ⟨"Car", none, [⟨"wheel", .relation false, .entity "Wheel",
        ⟨none, none, false⟩, false, false, none⟩]⟩)]

/-- That document after the one from which it imports. -/
def ofCollidingImport : Snapshot :=
  .ofDocuments [.drafting ⟨0⟩ "parts" [.declare (.entity ⟨"Wheel", none, []⟩)], collidingImport]

theorem loaded_ofCollidingImport : ofCollidingImport.catalog.Loaded := by
  refine .ofDocuments fun d hd ↦ ?_
  rcases List.mem_pair.1 hd with rfl | rfl
  · exact Document.drafted_drafting _ _ (by decide)
  · exact Document.drafted_drafting _ _ (by decide)

/-- There the type is ambiguous, and the imported entity is told first. -/
theorem resolutionAt_classifier_ofCollidingImport :
    ofCollidingImport.catalog.Loaded ∧ Site.entityType.namesClassifier = true ∧
      ofCollidingImport.resolutionAt ⟨⟨1⟩, 6⟩ = .ambiguous [⟨⟨0⟩, 1⟩, ⟨⟨1⟩, 3⟩] := by
  have hsite : Site.entityType.namesClassifier = true := rfl
  have himported : ofCollidingImport.importedAs collidingImport .entityType "Wheel" =
      [⟨⟨0⟩, 1⟩] := by
    decide
  have hdeclared : ofCollidingImport.declaredAs collidingImport .entityType "Wheel" =
      [⟨⟨1⟩, 3⟩] := by
    decide
  obtain ⟨-, -, -, -, -, hambiguous, -⟩ := resolutionAt_classifier ofCollidingImport
    loaded_ofCollidingImport (n := ⟨⟨1⟩, 6⟩) (d := collidingImport) rfl rfl rfl hsite
  refine ⟨loaded_ofCollidingImport, hsite, (hambiguous _).2 ?_⟩
  show _ = ofCollidingImport.importedAs collidingImport .entityType "Wheel" ++
    ofCollidingImport.declaredAs collidingImport .entityType "Wheel" ∧ _
  rw [himported, hdeclared]
  simp

end Snapshot

end Schemata
