import Schemata.Proofs.Clean
import Schemata.Proofs.Classifiers
import Schemata.Proofs.RepeatFindings

/-!
# Declarations that others hide

A reference that comes to one node may pass over others of the same name, which are then hidden by
the first. For declarations of one place this is meant to be no secret: the check of names reports
each that repeats the name of an earlier one. `Snapshot.hidden_reported_iff` says how far that goes.
At seven kinds of site the hidden node repeats the name of the node that hides it, and so it is
reported. An instance looks for external ids instead, which the check of names does not compare;
there a hidden entity is reported only if it happens to repeat some name.
-/

namespace Schemata

section Classes

variable {classes : Text.IdentifierClasses}

/-! ### Which names are reported -/

namespace Catalog

variable {c : Catalog} {n p t u : NodeId} {places : List NodeId} {what : String}

/-- Whether a node stands before another among declarations that have to have different names. -/
def Precedes (c : Catalog) (t u : NodeId) : Prop :=
  ∃ p places what, c.siblings? p = some (places, what) ∧ [t, u].Sublist places

/-- Whether a node has the name of one that precedes it. -/
def RepeatsName (c : Catalog) (u : NodeId) : Prop :=
  ∃ t name, c.Precedes t u ∧ c.name? t = some name ∧ c.name? u = some name

/-- What the check of names compares are classifiers, members and literals. -/
theorem Loaded.isClassifier_or_of_mem_siblings (h : c.Loaded)
    (hp : c.siblings? p = some (places, what)) (hu : u ∈ places) :
    ∃ k, c.kind? u = some k ∧ (k.isClassifier = true ∨ k = .member ∨ k = .literal) := by
  obtain ⟨content, hc, ⟨name, d, -, hd, rfl⟩ | ⟨⟨name, id, rfl⟩, rfl⟩ | ⟨⟨name, rfl⟩, rfl⟩⟩ :=
    exists_of_siblings? hp
  · obtain ⟨i, hi, rfl⟩ := List.mem_map.1 hu
    obtain ⟨k, hk, hclassifier⟩ := (h.tree hd).kind_classifiers i hi
    have hfile : c.document? (d.id i).file = some d := by
      rw [show (d.id i).file = p.file from document?_eq_some hd]
      exact hd
    exact ⟨k, by rw [kind?_eq hfile]; exact hk, .inl hclassifier⟩
  · obtain ⟨m, hm⟩ := h.member_of_mem_children hc hu
    exact ⟨_, kind?_of_content? hm, .inr (.inl rfl)⟩
  · obtain ⟨name, hname⟩ := h.literal_of_mem_children hc hu
    exact ⟨_, kind?_of_content? hname, .inr (.inr rfl)⟩

/-- So they are no assignments. -/
theorem Loaded.kind?_of_mem_siblings (h : c.Loaded) (hp : c.siblings? p = some (places, what))
    (hu : u ∈ places) : ∃ k, c.kind? u = some k ∧ k ≠ .assignment := by
  obtain ⟨k, hk, hdeclared⟩ := h.isClassifier_or_of_mem_siblings hp hu
  refine ⟨k, hk, ?_⟩
  rintro rfl
  simp [Kind.isClassifier] at hdeclared

/-- A name is found at each node that has the name of one before it. -/
theorem exists_mem_nameFindings_iff :
    (∃ x ∈ c.nameFindings p, x.node = u) ↔ ∃ places what, c.siblings? p = some (places, what) ∧
      ∃ t name, [t, u].Sublist places ∧ c.name? t = some name ∧ c.name? u = some name := by
  cases hp : c.siblings? p with
  | none => simp [nameFindings, hp]
  | some siblings =>
    obtain ⟨places, what⟩ := siblings
    constructor
    · rintro ⟨x, hx, rfl⟩
      obtain ⟨u, first, name, hrepeats, -, rfl⟩ := (mem_nameFindings_iff hp).1 hx
      exact ⟨places, what, rfl, exists_repeatsFirst_iff.1 ⟨first, hrepeats⟩⟩
    · rintro ⟨_, _, heq, t, name, hsublist, ht, hu⟩
      obtain ⟨rfl, rfl⟩ := Prod.mk.inj (Option.some.inj heq)
      obtain ⟨first, hrepeats⟩ := exists_repeatsFirst_iff.2 ⟨t, name, hsublist, ht, hu⟩
      exact ⟨_, (mem_nameFindings_iff hp).2 ⟨u, first, name, hrepeats, hu, rfl⟩, rfl⟩

/-- What a look-up among declarations passes over is preceded by what it finds. -/
theorem precedes_of_lookup (hp : c.siblings? p = some (places, what))
    {names : List (String × NodeId)}
    (hnames : names = places.filterMap fun n ↦ (c.name? n).map (·, n)) {name : String}
    (hfound : (Scope.ofDeclared names).lookup name = .found t) (hu : (name, u) ∈ names)
    (hne : u ≠ t) : c.Precedes t u ∧ c.name? t = some name ∧ c.name? u = some name := by
  have hhead : (names.filter (·.1 == name)).head? = some (name, t) := by
    have hmeaning := (Scope.lookup_eq_found_iff.1 hfound).1
    rw [Scope.meanings, head?_eraseDups, Scope.matching, Scope.ofDeclared, List.filter_map,
      List.map_map, List.head?_map, Option.map_eq_some_iff] at hmeaning
    obtain ⟨⟨name', t'⟩, hhead, rfl⟩ := hmeaning
    have hname : (name' == name) = true := (List.mem_filter.1 (List.mem_of_head? hhead)).2
    rw [eq_of_beq hname] at hhead
    exact hhead
  have hmem : (name, u) ∈ names.filter (·.1 == name) := List.mem_filter.2 ⟨hu, by simp⟩
  have hpair : [(name, t), (name, u)].Sublist names :=
    (pair_sublist_of_head? hhead hmem (by simp [hne])).trans List.filter_sublist
  rw [hnames] at hpair
  obtain ⟨t', u', hsublist, ht', hu'⟩ := pair_sublist_filterMap_iff.1 hpair
  obtain ⟨name', hname, heq⟩ := Option.map_eq_some_iff.1 ht'
  obtain ⟨name'', hname', heq'⟩ := Option.map_eq_some_iff.1 hu'
  rw [Prod.mk.injEq] at heq heq'
  obtain ⟨⟨rfl, rfl⟩, ⟨rfl, rfl⟩⟩ := And.intro heq heq'
  exact ⟨⟨p, places, what, hp, hsublist⟩, hname, hname'⟩

end Catalog

namespace Snapshot

variable {s : Snapshot} {n t u : NodeId}

/-- Whether the check of its file reports a node for its name. -/
def ReportsName (s : Snapshot) (u : NodeId) : Prop :=
  ∃ x ∈ s.evaluate (s.check u.file), x.node = u ∧ x.code = some "duplicate-name"

/-- What repeats in an instance are assignments. -/
theorem kind?_of_mem_assignmentFindings (h : s.catalog.Loaded) {name : String} {r : Reference}
    (hn : s.catalog.content? n = some (.instantiation name r)) {x : Diagnostic}
    (hx : x ∈ s.evaluate (s.assignmentFindings n)) : s.catalog.kind? x.node = some .assignment := by
  have hchild := (nodes_assignmentFindings_sublist s n).subset (List.mem_map_of_mem hx)
  obtain ⟨r', hr'⟩ := h.assignment_of_mem_children hn hchild
  exact Catalog.kind?_of_content? hr'

/-- What is found at a node about a repeated name comes from the check of names, unless the node is
an assignment. -/
theorem mem_nameFindings_of_code (h : s.catalog.Loaded) {x : Diagnostic} {file : FileId}
    (hx : x ∈ s.evaluate (s.check file)) (hcode : x.code = some "duplicate-name")
    (hnode : s.catalog.kind? x.node ≠ some .assignment) : ∃ p, x ∈ s.catalog.nameFindings p := by
  obtain ⟨p, hx⟩ := exists_mem_contentFindings hx (by simp [Diagnostic.isLinking, hcode])
  rcases cases_of_mem_contentFindings hx with hx | ⟨hx, name, r, hp⟩ | hx
  · exact ⟨p, hx⟩
  · exact absurd (kind?_of_mem_assignmentFindings h hp hx) hnode
  · exact absurd hcode hx.code_ne

/-- A declaration is reported for its name exactly if one that precedes it has the name. -/
theorem reportsName_iff (h : s.catalog.Loaded) {k : Kind} (hk : s.catalog.kind? u = some k)
    (hne : k ≠ .assignment) : s.ReportsName u ↔ s.catalog.RepeatsName u := by
  constructor
  · rintro ⟨x, hx, rfl, hcode⟩
    have hnode : s.catalog.kind? x.node ≠ some .assignment := by
      rw [hk, Ne, Option.some.injEq]
      exact hne
    obtain ⟨p, hx⟩ := mem_nameFindings_of_code h hx hcode hnode
    obtain ⟨places, what, hp, t, name, hsublist, ht, hu⟩ :=
      Catalog.exists_mem_nameFindings_iff.1 ⟨x, hx, rfl⟩
    exact ⟨t, name, ⟨p, places, what, hp, hsublist⟩, ht, hu⟩
  · rintro ⟨t, name, ⟨p, places, what, hp, hsublist⟩, ht, hu⟩
    obtain ⟨x, hx, rfl⟩ :=
      Catalog.exists_mem_nameFindings_iff.2 ⟨places, what, hp, t, name, hsublist, ht, hu⟩
    refine ⟨x, ?_, rfl, Catalog.code_of_mem_nameFindings hx⟩
    have hmem : x.node ∈ places := hsublist.subset (by simp)
    obtain ⟨content, hc, -⟩ := Catalog.exists_of_siblings? hp
    obtain ⟨d, hd⟩ := Catalog.exists_document_of_content? hc
    have hnodes : p ∈ d.nodes := (h.mem_nodes_iff hd).2 ⟨rfl, content, hc⟩
    rw [Catalog.file_of_mem_siblings hp hmem, evaluate_check hd]
    refine List.mem_append_right _ (List.mem_flatMap.2 ⟨p, hnodes, ?_⟩)
    rw [evaluate_contentFindings_of_siblings hp]
    exact hx

/-! ### What is hidden -/

/-- The root of a document names its classifiers. -/
theorem siblings?_rootId {d : Document} (hd : s.catalog.document? d.file = some d) :
    s.catalog.siblings? d.rootId = some (d.classifiers.map d.id, "classifier") :=
  Catalog.siblings?_root hd (Catalog.content?_id hd 0)

theorem namedClassifiers_eq {d : Document} (hd : s.catalog.document? d.file = some d) :
    d.namedClassifiers =
      (d.classifiers.map d.id).filterMap fun n ↦ (s.catalog.name? n).map (·, n) := by
  rw [List.filterMap_map]
  refine List.filterMap_congr fun i _ ↦ ?_
  have hname : s.catalog.name? (d.id i) = d.name? i := Catalog.name?_eq (n := d.id i) hd
  rw [Function.comp_apply, hname]

/-- A declaration by which a reference is passed over is preceded by the one to which it comes. -/
structure Hidden (s : Snapshot) (site : Site) (text : String) (t u : NodeId) : Prop where
  precedes : s.catalog.Precedes t u
  same_name : site ≠ .instanceEntity →
    s.catalog.name? t = some text ∧ s.catalog.name? u = some text

variable {content : Content Reference} {site : Site} {r : Reference} {scope : Scope}
  {e : ScopeEntry}

/-- Where a classifier is named from within a file, a hidden one is declared in the file after the
one that is found. -/
theorem hidden_of_namesClassifier (h : s.catalog.Loaded) (hn : s.catalog.content? n = some content)
    (hr : content.reference? = some (site, r)) (hsite : site.namesClassifier = true)
    (hfound : s.resolutionAt n = .found t) (hs : s.candidatesAt n = some scope)
    (he : e ∈ scope.entries) (hname : e.name = r.text) (hne : e.target ≠ t) :
    s.Hidden site r.text t e.target := by
  obtain ⟨d, hd⟩ := Catalog.exists_document_of_content? hn
  have hown : s.catalog.document? d.file = some d := by rw [Catalog.document?_eq_some hd, hd]
  obtain ⟨scope', hs', hlookup, hmatching⟩ := matching_eq h hd hn hr hsite
  obtain rfl : scope' = scope := Option.some.inj (hs'.symm.trans hs)
  have hdeclared : (s.declaredAs d site r.text).Nodup := nodup_declaredAs h hown
  have hdisjoint : (s.importedMeanings d site r.text).Disjoint (s.declaredAs d site r.text) :=
    disjoint_importedMeanings_declaredAs h hown
  have hmem : e.target ∈ scope'.meanings r.text := Scope.mem_meanings_iff.2 ⟨e, he, hname, rfl⟩
  rw [Scope.meanings_of_matching hmatching hdeclared hdisjoint] at hmem
  rw [hlookup] at hfound
  rcases (Scope.lookup_eq_found_iff_of_matching hmatching hdeclared hdisjoint).1 hfound with
    ⟨himported, hhead⟩ | ⟨himported, hnone⟩
  · rw [himported, List.nil_append] at hmem
    refine ⟨⟨d.rootId, _, _, siblings?_rootId hown,
      (pair_sublist_of_head? hhead hmem hne).trans List.filter_sublist⟩, fun hinstance ↦ ?_⟩
    -- at other sites than instances the text is the name
    have hnamed {t' : NodeId} (ht' : t' ∈ s.declaredAs d site r.text) :
        s.catalog.name? t' = some r.text := by
      have hmeans := (Bool.and_eq_true_iff.1 (List.mem_filter.1 ht').2).2
      rw [beq_iff_eq] at hmeans
      cases site with
      | instanceEntity => exact absurd rfl hinstance
      | _ => exact hmeans
    exact ⟨hnamed (List.mem_of_head? hhead), hnamed hmem⟩
  · -- nothing else is meant, so nothing is hidden
    rw [himported, hnone, List.append_nil, List.mem_singleton] at hmem
    exact absurd hmem hne

/-- What a reference passes over is preceded by what it comes to. -/
theorem hidden_of_found (h : s.catalog.Loaded) (hn : s.catalog.content? n = some content)
    (hr : content.reference? = some (site, r)) (hfound : s.resolutionAt n = .found t)
    (hs : s.candidatesAt n = some scope) (he : e ∈ scope.entries) (hname : e.name = r.text)
    (hne : e.target ≠ t) : s.Hidden site r.text t e.target := by
  have hlookup : scope.lookup r.text = .found t := by
    rw [resolutionAt_of_reference h hn hr, hs] at hfound
    exact hfound
  -- a scope of declarations of one place is left to `precedes_of_lookup`
  have hdeclared {p : NodeId} {places : List NodeId} {what : String}
      {names : List (String × NodeId)} (hp : s.catalog.siblings? p = some (places, what))
      (hnames : names = places.filterMap fun n ↦ (s.catalog.name? n).map (·, n))
      (hscope : scope = .ofDeclared names) : s.Hidden site r.text t e.target := by
    subst hscope
    obtain ⟨x, hx, rfl⟩ := List.mem_map.1 he
    obtain ⟨hprecedes, ht, hu⟩ := Catalog.precedes_of_lookup hp hnames hlookup (hname ▸ hx) hne
    exact ⟨hprecedes, fun _ ↦ ⟨ht, hu⟩⟩
  match content, hr with
  | .type (.entity r'), rfl | .type (.enumeration r'), rfl | .value (.contained r'), rfl
  | .instantiation name r', rfl =>
    exact hidden_of_namesClassifier h hn rfl rfl hfound hs he hname hne
  | .importClause r', rfl =>
    -- a document has one entry for each name
    obtain ⟨d, hd⟩ := Catalog.exists_document_of_content? hn
    rw [candidatesAt_importClause hn, hd, Option.map_some, Option.some.injEq] at hs
    subst hs
    obtain ⟨e', he', hname', rfl⟩ := Scope.exists_mem_of_lookup hlookup
    obtain ⟨d₁, hd₁, -, rfl⟩ := (Catalog.mem_documentScope_iff h.files_nodup).1 he
    obtain ⟨d₂, hd₂, -, rfl⟩ := (Catalog.mem_documentScope_iff h.files_nodup).1 he'
    rw [hname] at hd₁
    rw [hname', hd₁, Option.some.injEq] at hd₂
    exact absurd (by rw [hd₂]) hne
  | .importItem r' rename, rfl =>
    obtain ⟨p, r'', hp, hc⟩ := h.exists_importClause hn
    rw [candidatesAt_importItem hn hp] at hs
    obtain ⟨source, -, hs⟩ := Option.bind_eq_some_iff.1 hs
    obtain ⟨d, hd, hscope⟩ := Option.map_eq_some_iff.1 hs
    have hown : s.catalog.document? d.file = some d := by rw [Catalog.document?_eq_some hd, hd]
    exact hdeclared (siblings?_rootId hown) (namedClassifiers_eq hown) hscope.symm
  | .assignment r', rfl =>
    obtain ⟨p, name, r'', hp, hc⟩ := h.exists_instantiation hn
    rw [candidatesAt_assignment hn hp] at hs
    obtain ⟨entity, hentity, hs⟩ := Option.bind_eq_some_iff.1 hs
    obtain ⟨entityName, id, hce⟩ := exists_entity_of_instantiation hc hentity
    simp only [hce, Option.some.injEq] at hs
    exact hdeclared (Catalog.siblings?_entity hce) rfl hs.symm
  | .value (.literal r'), rfl =>
    obtain ⟨member, type, r'', enumeration, hm, hw, htarget, -⟩ :=
      exists_literal_of_literal h hn (targetAt?_eq_some_iff.2 hfound)
    obtain ⟨m, hc⟩ := Catalog.exists_member_of_memberType? hw
    obtain ⟨name, hce⟩ :=
      exists_enumeration_of_enumerationType (Catalog.content?_of_memberType? hw) htarget
    rw [candidatesAt_literal_of_enumeration hn hm hc hw, htarget, Option.bind_some] at hs
    simp only [hce, Option.some.injEq] at hs
    exact hdeclared (Catalog.siblings?_enumeration hce) rfl hs.symm

/-- **A hidden declaration is reported exactly if it repeats a name.** Where a reference comes to
one node and passes over another of the same text, the other one is a declaration. It is reported if
and only if it has the name of a declaration that precedes it, and at every site but an instance it
has, namely that of the node which hides it. -/
theorem hidden_reported_iff (s : Snapshot) (h : s.catalog.Loaded) {n t : NodeId}
    {content : Content Reference} (hn : s.catalog.content? n = some content) {site : Site}
    {r : Reference} (hr : content.reference? = some (site, r))
    (hfound : s.resolutionAt n = .found t) {scope : Scope} (hs : s.candidatesAt n = some scope)
    {e : ScopeEntry} (he : e ∈ scope.entries) (hname : e.name = r.text) (hne : e.target ≠ t) :
    s.catalog.Precedes t e.target ∧
    (s.ReportsName e.target ↔ s.catalog.RepeatsName e.target) ∧
    (site ≠ .instanceEntity → s.ReportsName e.target) := by
  have hhidden := hidden_of_found h hn hr hfound hs he hname hne
  obtain ⟨p, places, what, hp, hsublist⟩ := hhidden.precedes
  obtain ⟨k, hk, hkind⟩ := h.kind?_of_mem_siblings hp (hsublist.mem (List.mem_pair.2 (.inr rfl)))
  have hiff := reportsName_iff h hk hkind
  refine ⟨hhidden.precedes, hiff, fun hsite ↦ hiff.2 ?_⟩
  obtain ⟨ht, hu⟩ := hhidden.same_name hsite
  exact ⟨t, r.text, hhidden.precedes, ht, hu⟩

end Snapshot

end Classes

namespace Snapshot

/-- One document with two entities of one name, which also types a member. Place 5 is that type. -/
def ofRepeatedName : Snapshot :=
  .ofDocuments [.drafting ⟨0⟩ "m"
    [.declare (.entity ⟨"E", none, []⟩), .declare (.entity ⟨"E", none, []⟩),
      .declare (.entity ⟨"C", none, [⟨"x", .relation false, .entity "E", ⟨none, none, false⟩, false,
        false, none⟩]⟩)]]

theorem loaded_ofRepeatedName : ofRepeatedName.catalog.Loaded :=
  .ofDrafting _ _ (by decide)

/-- There the type comes to the first of the two, and the second is reported. -/
theorem hidden_reported_iff_ofRepeatedName :
    ofRepeatedName.catalog.Loaded ∧
      ofRepeatedName.resolutionAt ⟨⟨0⟩, 5⟩ = .found ⟨⟨0⟩, 1⟩ ∧
      (⟨"E", ⟨⟨0⟩, 2⟩, false⟩ : ScopeEntry) ∈ (ofRepeatedName.scopeIn ⟨0⟩).entries ∧
      ofRepeatedName.ReportsName ⟨⟨0⟩, 2⟩ := by
  have hfound : ofRepeatedName.resolutionAt ⟨⟨0⟩, 5⟩ = .found ⟨⟨0⟩, 1⟩ := by decide
  have hmem : (⟨"E", ⟨⟨0⟩, 2⟩, false⟩ : ScopeEntry) ∈ (ofRepeatedName.scopeIn ⟨0⟩).entries := by
    decide
  obtain ⟨-, -, hreported⟩ := hidden_reported_iff ofRepeatedName loaded_ofRepeatedName
    (n := ⟨⟨0⟩, 5⟩) rfl rfl hfound (candidatesAt_entityType rfl) hmem rfl (by decide)
  exact ⟨loaded_ofRepeatedName, hfound, hmem, hreported (by decide)⟩

/-- One document with two entities of one external id, and an instance of that id at place 3. -/
def ofSharedId : Snapshot :=
  .ofDocuments [.drafting ⟨0⟩ "m"
    [.declare (.entity ⟨"A", some "e", []⟩), .declare (.entity ⟨"B", some "e", []⟩),
      .declare (.instantiation ⟨"i", "e", []⟩)]]

theorem loaded_ofSharedId : ofSharedId.catalog.Loaded :=
  .ofDrafting _ _ (by decide)

/-- There the instance comes to the first entity, and nothing is said about the second. So a
reference can hide a declaration that is not reported. -/
theorem not_reportsName_of_hidden :
    ¬ ∀ s : Snapshot, s.catalog.Loaded → ∀ n t content site r scope,
      s.catalog.content? n = some content → content.reference? = some (site, r) →
      s.resolutionAt n = .found t → s.candidatesAt n = some scope →
        ∀ e ∈ scope.entries, e.name = r.text → e.target ≠ t → s.ReportsName e.target := by
  intro hreported
  have hfound : ofSharedId.resolutionAt ⟨⟨0⟩, 3⟩ = .found ⟨⟨0⟩, 1⟩ := by decide
  have hmem : (⟨"e", ⟨⟨0⟩, 2⟩, false⟩ : ScopeEntry) ∈
      ((ofSharedId.scopeIn ⟨0⟩).byExternalId ofSharedId.catalog).entries := by
    decide
  have hclean : ofSharedId.evaluate (ofSharedId.check ⟨0⟩) = [] := by decide
  obtain ⟨x, hx, -⟩ := hreported ofSharedId loaded_ofSharedId ⟨⟨0⟩, 3⟩ _ _ _ _ _ rfl rfl hfound
    (candidatesAt_instantiation rfl) _ hmem rfl (by decide)
  rw [hclean] at hx
  cases hx

end Snapshot

end Schemata
