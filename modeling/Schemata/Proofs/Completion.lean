import Schemata.Proofs.Offers
import Schemata.Proofs.Retexting

/-!
# Completion

A tool that completes a reference offers the names of its scope. To take one of them means to write
it at the reference and to load the document again. Then the scope is what it was, and the reference
comes to what the name stands for in it (`Snapshot.resolutionAt_of_completion`).

The scope may rest on what other references come to, in this document and in others, and those on
others again. None of them rests on the text that is written: a scope asks only for references of
lower rank than its own (`Snapshot.rank_lt_of_mem_asked_candidates`), so the reference itself is not
among them, and no other text changes.
-/

namespace Schemata

/-- The text at a node, read off its document. -/
theorem Catalog.text?_eq {c : Catalog} {n : NodeId} {d : Document}
    (hd : c.document? n.file = some d) :
    c.text? n = ((d.bareContent? n.index).bind (·.reference?)).map (·.2) := by
  rw [text?, content?_eq hd, Document.bareContent?]
  cases d.content? n.index with
  | none => rfl
  | some content =>
    rw [Option.map_some, Option.bind_some, Option.bind_some, Content.reference?_map, Option.map_map]
    rfl

/-- A name of a scope stands for something. -/
theorem Scope.found_or_ambiguous {scope : Scope} {name : String} (h : name ∈ scope.names) :
    (∃ t, scope.lookup name = .found t) ∨ ∃ ts, scope.lookup name = .ambiguous ts := by
  obtain ⟨e, he, hname⟩ := List.mem_map.1 h
  cases hlookup : scope.lookup name with
  | found t => exact .inl ⟨t, rfl⟩
  | ambiguous ts => exact .inr ⟨ts, rfl⟩
  | notFound =>
    have hmem : e.target ∈ scope.meanings name := mem_meanings_iff.2 ⟨e, he, hname, rfl⟩
    rw [lookup_eq_notFound_iff.1 hlookup] at hmem
    cases hmem
  | blocked => exact absurd hlookup (scope.lookup_ne_blocked name)

namespace Snapshot

section Classes

variable {classes : Text.IdentifierClasses}

variable {s : Snapshot} {n : NodeId} {d d' : Document} {text : String}

/-! ### The document with the name written -/

section Loading

variable (hfiles : s.catalog.files.Nodup) (hd : s.catalog.document? n.file = some d)
  (h : d.Retexts d' n.index text)
include hfiles hd h

/-- The loaded documents are the same once ranges and texts are taken away. -/
theorem stripped_loading (r : Reference) :
    ((s.loading d').stripped fun _ ↦ r) = s.stripped fun _ ↦ r := by
  have hfile : d'.file = n.file := h.file_eq.trans (Catalog.document?_eq_some hd)
  obtain ⟨before, after, hdocuments, hdocuments'⟩ :=
    Catalog.exists_documents_insert hfiles (hfile ▸ hd)
  rw [stripped, stripped, Catalog.stripped, Catalog.stripped]
  show Snapshot.mk ⟨_, (s.catalog.insert d').documents.map _⟩ s.settings = _
  rw [hdocuments, hdocuments', List.map_append, List.map_cons, h.stripped_eq, List.map_append,
    List.map_cons]

theorem document?_loading_self : (s.loading d').catalog.document? n.file = some d' := by
  have hfile : d'.file = n.file := h.file_eq.trans (Catalog.document?_eq_some hd)
  rw [← hfile]
  exact Catalog.document?_insert_self hfiles (hfile ▸ hd)

/-- No other text changes. -/
theorem text?_loading_of_ne {m : NodeId} (hne : m ≠ n) :
    (s.loading d').catalog.text? m = s.catalog.text? m := by
  have hfile : d'.file = n.file := h.file_eq.trans (Catalog.document?_eq_some hd)
  by_cases hm : m.file = n.file
  · have hindex : m.index ≠ n.index := by
      intro heq
      obtain ⟨file, index⟩ := m
      exact hne (congrArg₂ NodeId.mk hm heq)
    have hd' := document?_loading_self hfiles hd h
    rw [← hm] at hd hd'
    rw [Catalog.text?_eq hd, Catalog.text?_eq hd', h.bareContent?_of_ne _ hindex]
  · have hsame : (s.loading d').catalog.document? m.file = s.catalog.document? m.file :=
      Catalog.document?_insert_of_ne hfiles (hfile ▸ hd) (hfile ▸ hm)
    rw [Catalog.text?, Catalog.text?, Catalog.content?_congr hsame]

/-- The reference stands where it stood, with the text that is written. -/
theorem exists_content?_loading {content : Content Reference} {site : Site} {r : Reference}
    (hn : s.catalog.content? n = some content) (hr : content.reference? = some (site, r)) :
    ∃ content' r', (s.loading d').catalog.content? n = some content' ∧
      content'.reference? = some (site, r') ∧ r'.text = text := by
  have hbare := h.bareContent?_self
  rw [Catalog.content?_eq hd] at hn
  rw [Document.bareContent?, Document.bareContent?, hn, Option.map_some, Option.map_some] at hbare
  obtain ⟨content', hn', hcontent⟩ := Option.map_eq_some_iff.1 hbare
  have hreference := congrArg Content.reference? hcontent
  simp only [Content.reference?_map, hr, Option.map_some] at hreference
  obtain ⟨⟨site', r'⟩, hr', heq⟩ := Option.map_eq_some_iff.1 hreference
  obtain ⟨rfl, htext⟩ := Prod.mk.inj heq
  exact ⟨content', r', (Catalog.content?_eq (document?_loading_self hfiles hd h)).trans hn', hr',
    htext⟩

section Reference

variable {content : Content Reference} {site : Site} {r : Reference}
  (hn : s.catalog.content? n = some content) (hr : content.reference? = some (site, r))
include hn hr

/-- No reference of lower rank has another text. -/
theorem text?_loading_of_rank_lt {m : NodeId} (hm : s.rank (.resolution m) < site.rank) :
    (s.loading d').catalog.text? m = s.catalog.text? m := by
  refine text?_loading_of_ne hfiles hd h fun heq ↦ ?_
  -- the reference itself has the rank of its site, which is not below it
  rw [heq, rank_resolution hn hr] at hm
  exact Nat.lt_irrefl _ hm

variable (hloaded : s.catalog.Loaded)
include hloaded

/-- The names that can be used at the reference are the same. -/
theorem candidatesAt_loading : (s.loading d').candidatesAt n = s.candidatesAt n :=
  candidatesAt_eq_of_stripped (stripped_loading hfiles hd h r) hloaded hn hr fun _ hm ↦
    text?_loading_of_rank_lt hfiles hd h hn hr hm

/-- And the reference comes to what the text that is written stands for among them. -/
theorem resolutionAt_loading {scope : Scope} (hscope : s.candidatesAt n = some scope) :
    (s.loading d').resolutionAt n = scope.lookup text := by
  obtain ⟨content', r', hn', hr', rfl⟩ := exists_content?_loading hfiles hd h hn hr
  rw [resolutionAt_of_stripped (stripped_loading hfiles hd h r) hloaded hn hr
    (fun _ hm ↦ text?_loading_of_rank_lt hfiles hd h hn hr hm) hn' hr', hscope]

end Reference

end Loading

/-! ### The name that is written -/

/-- A node without a reference has no names to offer. -/
theorem exists_reference_of_candidatesAt {scope : Scope} (h : s.candidatesAt n = some scope) :
    ∃ content site r, s.catalog.content? n = some content ∧
      content.reference? = some (site, r) := by
  cases hr : (s.catalog.content? n).bind (·.reference?) with
  | none =>
    simp only [candidatesAt, evaluate, candidates, hr] at h
    cases h
  | some r =>
    obtain ⟨content, hn, hr⟩ := Option.bind_eq_some_iff.1 hr
    exact ⟨content, r.1, r.2, hn, hr⟩

/-- **Completion is sound.** Take a name, not blank, that can be used at a reference. There is a
draft of the document with this name at the reference and all else as it is, ranges apart, and
whenever such a document is loaded, the reference has the same scope in the next generation and
comes to what the name stands for in it: to one node or to several, each of which bears the name in
the scope. -/
theorem resolutionAt_of_completion (s : Snapshot) (h : s.catalog.Loaded) {n : NodeId}
    {scope : Scope} {text : String} (hscope : s.candidatesAt n = some scope)
    (htext : text ∈ scope.names) (hblank : Text.isBlank text = false) :
    ∃ d, s.catalog.document? n.file = some d ∧
      (∃ edits d' outcomes, Document.ofEdits? n.file d.name edits = .ok (d', outcomes) ∧
        d.Retexts d' n.index text) ∧
      ∀ d', d.Retexts d' n.index text →
        (s.loading d').catalog.generation = s.catalog.generation.next ∧
        (s.loading d').candidatesAt n = some scope ∧
        (s.loading d').resolutionAt n = scope.lookup text ∧
        ((∃ t, scope.lookup text = .found t) ∨ ∃ ts, scope.lookup text = .ambiguous ts) ∧
        ∀ t ∈ (scope.lookup text).targets, ∃ e ∈ scope.entries, e.name = text ∧ e.target = t := by
  obtain ⟨content, site, r, hn, hr⟩ := exists_reference_of_candidatesAt hscope
  obtain ⟨d, hd⟩ := Catalog.exists_document_of_content? hn
  have hfile : d.file = n.file := Catalog.document?_eq_some hd
  refine ⟨d, hd, ?_, fun d' hd' ↦ ?_⟩
  · rw [← hfile]
    exact (h.drafted_of_document? hd).exists_retexts n.index hblank
  · have hscope' : (s.loading d').candidatesAt n = some scope :=
      (candidatesAt_loading h.files_nodup hd hd' hn hr h).trans hscope
    have hlookup := resolutionAt_loading h.files_nodup hd hd' hn hr h hscope
    exact ⟨rfl, hscope', hlookup, Scope.found_or_ambiguous htext,
      fun t ht ↦ Scope.mem_meanings_iff.1 (Scope.mem_meanings_of_mem_targets ht)⟩

end Classes

/-- Two documents, the second of which imports an entity of the first by a name that it has not. -/
def ofMisspelledImport : Snapshot :=
  .ofDocuments [.drafting ⟨0⟩ "shapes" [.declare (.entity ⟨"Circle", none, []⟩)],
    .drafting ⟨1⟩ "drawings" [.declare (.imports ⟨"shapes", [⟨"Circel", none⟩]⟩)]]

theorem loaded_ofMisspelledImport : ofMisspelledImport.catalog.Loaded := by
  refine .ofDocuments fun d hd ↦ ?_
  rcases List.mem_pair.1 hd with rfl | rfl
  · exact Document.drafted_drafting _ _ (by decide)
  · exact Document.drafted_drafting _ _ (by decide)

/-- The name that is offered for it comes to the entity once it is written. -/
theorem resolutionAt_of_completion_ofMisspelledImport :
    ofMisspelledImport.resolutionAt ⟨⟨1⟩, 2⟩ = .notFound ∧
      ofMisspelledImport.candidatesAt ⟨⟨1⟩, 2⟩ = some ⟨[⟨"Circle", ⟨⟨0⟩, 1⟩, false⟩]⟩ ∧
      ∃ d d', ofMisspelledImport.catalog.document? ⟨1⟩ = some d ∧ d.Retexts d' 2 "Circle" ∧
        (ofMisspelledImport.loading d').resolutionAt ⟨⟨1⟩, 2⟩ = .found ⟨⟨0⟩, 1⟩ := by
  have hscope : ofMisspelledImport.candidatesAt ⟨⟨1⟩, 2⟩ =
      some ⟨[⟨"Circle", ⟨⟨0⟩, 1⟩, false⟩]⟩ := by decide
  have htext : "Circle" ∈ (Scope.mk [⟨"Circle", ⟨⟨0⟩, 1⟩, false⟩]).names := by decide
  obtain ⟨d, hd, ⟨edits, d', outcomes, -, hd'⟩, hall⟩ :=
    resolutionAt_of_completion ofMisspelledImport loaded_ofMisspelledImport hscope htext (by decide)
  obtain ⟨-, -, hresolution, -⟩ := hall d' hd'
  exact ⟨by decide, hscope, d, d', hd, hd', hresolution.trans (by decide)⟩

end Snapshot

end Schemata
