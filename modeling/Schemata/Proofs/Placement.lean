import Schemata.Proofs.CheckAgreement
import Schemata.Proofs.RepeatFindings
import Schemata.Proofs.Targets
import Schemata.Proofs.Values
import Schemata.Proofs.Walks

/-!
# Where findings stand

A finding carries a range of its own, and so does each node that is related to it. Ranges are taken
from nodes, in the check of references from the reference, which has a range besides that of its
node. As both are moved together (`Node.InPlace`), a finding always stands where its node stands
(`Snapshot.standsIn_of_mem_check`).

The node is one of the file that is checked, also where it is a value that is meant for a member of
another document: the member says what is wrong with the value, but the value is what is reported.
-/

namespace Schemata

variable {classes : Text.IdentifierClasses}

/-- Whether something related to a finding stands where a node of the catalog stands. -/
def Related.StandsIn (c : Catalog) (x : Related) : Prop :=
  ∃ node, c.node? x.node = some node ∧ x.range = node.range

/-- Whether a finding is about a file of a catalog, and stands where its node stands. -/
structure Diagnostic.StandsIn (c : Catalog) (file : FileId) (x : Diagnostic) : Prop where
  file_eq : x.file = file
  node : ∃ node, c.node? x.node = some node ∧ x.range = node.range
  related : ∀ y ∈ x.related, y.StandsIn c

namespace Catalog

variable {c : Catalog} {n : NodeId}

/-- In a loaded catalog every reference has the range of its node. -/
theorem Loaded.inPlace (h : c.Loaded) {node : Node} (hn : c.node? n = some node) :
    node.InPlace := by
  obtain ⟨d, hd, hnode⟩ := Option.bind_eq_some_iff.1 hn
  obtain ⟨file, name, edits, outcomes, hedits⟩ := h.drafted_of_document? hd
  rw [(Document.eq_drafting_of_ofEdits? hedits).1] at hnode
  exact Document.inPlace_of_node?_drafting hnode

theorem range_of_content? {content : Content Reference} (hn : c.content? n = some content) :
    ∃ node, c.node? n = some node ∧ c.range n = node.range := by
  obtain ⟨node, hnode, -⟩ := exists_node?_of_content? hn
  exact ⟨node, hnode, by rw [range, hnode]; rfl⟩

theorem exists_content?_of_name? {name : String} (hn : c.name? n = some name) :
    ∃ content, c.content? n = some content := by
  rw [name?_eq_bind] at hn
  obtain ⟨content, hc, -⟩ := Option.bind_eq_some_iff.1 hn
  exact ⟨content, hc⟩

end Catalog

/-- A problem is reported where its node stands, if related nodes are shown where they stand. -/
theorem Problem.standsIn_report {c : Catalog} {n : NodeId} {content : Content Reference}
    (hn : c.content? n = some content) (p : Problem) {related : List Related}
    (hrelated : ∀ y ∈ related, y.StandsIn c) :
    (p.report n (c.range n) related).StandsIn c n.file :=
  ⟨rfl, Catalog.range_of_content? hn, hrelated⟩

namespace Snapshot

variable {s : Snapshot} {n : NodeId} {x : Diagnostic}

/-! ### Findings of references -/

/-- What is offered from other documents is shown where it stands. -/
theorem standsIn_of_mem_related {file : FileId} {site : Site} {text : String} {y : Related}
    (hy : y ∈ s.related file site text) : y.StandsIn s.catalog := by
  rw [related] at hy
  split at hy
  · rw [Catalog.declaredElsewhere_eq] at hy
    obtain ⟨d, -, hy⟩ := List.mem_flatMap.1 hy
    obtain ⟨e, -, hy⟩ := List.mem_filterMap.1 hy
    rw [Catalog.offer?] at hy
    split at hy
    · cases hy
    · rename_i node hnode
      split at hy
      · rw [← Option.some.inj hy]
        exact ⟨node, hnode, rfl⟩
      · cases hy
  · cases hy

theorem standsIn_of_mem_referenceFindings (h : s.catalog.Loaded)
    (hx : x ∈ s.evaluate (s.referenceFindings n)) : x.StandsIn s.catalog n.file := by
  rw [referenceFindings] at hx
  split at hx
  · rename_i content hn
    split at hx
    · rename_i site r hr
      obtain ⟨node, hnode, rfl⟩ := Catalog.exists_node?_of_content? hn
      have hrange : r.range = node.range := h.inPlace hnode site r hr
      rw [evaluate, Query.eval_bind, eval_resolution] at hx
      cases hres : s.resolutionAt n with
      | found t =>
        rw [hres] at hx
        cases hx
      | blocked =>
        rw [hres] at hx
        cases hx
      | notFound =>
        rw [hres] at hx
        rw [List.mem_singleton.1 hx]
        exact ⟨rfl, ⟨node, hnode, hrange⟩, fun y hy ↦ standsIn_of_mem_related hy⟩
      | ambiguous ts =>
        rw [hres] at hx
        rw [List.mem_singleton.1 hx]
        refine ⟨rfl, ⟨node, hnode, hrange⟩, fun y hy ↦ ?_⟩
        obtain ⟨t, ht, rfl⟩ := List.mem_map.1 hy
        have hsite := (exists_imported_of_ambiguous h hn hr hres).1
        obtain ⟨content, hc⟩ :=
          (fitsSite_of_namesClassifier h hn hr hsite (by rw [hres]; exact ht)).exists_content? h
        exact Catalog.range_of_content? hc
    · cases hx
  · cases hx

/-! ### Findings of contents -/

/-- What is found in a value stands where the value or an element of it stands, for whatever member
the value is meant. -/
theorem standsIn_of_mem_valueFindings {member value : NodeId}
    (hx : x ∈ s.evaluate (s.valueFindings member value)) : x.StandsIn s.catalog value.file := by
  obtain ⟨p, u, content, hu, hc, -, rfl⟩ := exists_finding_of_mem_valueFindings hx
  rw [← Catalog.file_of_mem_valueNodes hu]
  exact p.standsIn_report hc nofun

theorem exists_content?_of_targetAt? {t : NodeId} (hn : s.targetAt? n = some t) :
    ∃ content, s.catalog.content? n = some content := by
  cases hc : s.catalog.content? n with
  | some content => exact ⟨content, rfl⟩
  | none =>
    rw [targetAt?, resolutionAt_of_no_reference (by rw [hc]; rfl)] at hn
    cases hn

theorem standsIn_of_mem_nameFindings (hx : x ∈ s.catalog.nameFindings n) :
    x.StandsIn s.catalog n.file := by
  cases hp : s.catalog.siblings? n with
  | none =>
    rw [Catalog.nameFindings, hp] at hx
    cases hx
  | some siblings =>
    obtain ⟨u, first, name, hrepeats, -, rfl⟩ := (Catalog.mem_nameFindings_iff hp).1 hx
    -- both nodes declare the name
    obtain ⟨name, hu, hfirst⟩ := hrepeats.key_eq
    obtain ⟨content, hc⟩ := Catalog.exists_content?_of_name? hu
    obtain ⟨content', hc'⟩ := Catalog.exists_content?_of_name? hfirst
    rw [← Catalog.file_of_mem_siblings hp hrepeats.mem]
    refine Problem.standsIn_report hc _ fun y hy ↦ ?_
    rw [List.mem_singleton.1 hy]
    exact Catalog.range_of_content? hc'

theorem standsIn_of_mem_assignmentFindings (hx : x ∈ s.evaluate (s.assignmentFindings n)) :
    x.StandsIn s.catalog n.file := by
  obtain ⟨a, first, member, hrepeats, -, rfl⟩ := mem_assignmentFindings_iff.1 hx
  -- both are assignments of the instance that come to the member
  obtain ⟨member, ha, hfirst⟩ := hrepeats.key_eq
  obtain ⟨content, hc⟩ := exists_content?_of_targetAt? ha
  obtain ⟨content', hc'⟩ := exists_content?_of_targetAt? hfirst
  rw [← Catalog.file_of_mem_children hrepeats.mem]
  refine Problem.standsIn_report hc _ fun y hy ↦ ?_
  rw [List.mem_singleton.1 hy]
  exact Catalog.range_of_content? hc'

theorem standsIn_of_mem_contentFindings (hx : x ∈ s.evaluate (s.contentFindings n)) :
    x.StandsIn s.catalog n.file := by
  cases foundBy_of_mem_contentFindings hx with
  | name hx => exact standsIn_of_mem_nameFindings hx
  | assignment _ hx => exact standsIn_of_mem_assignmentFindings hx
  | own hn _ _ hx =>
    rw [hx]
    exact Problem.standsIn_report hn _ nofun
  | given hg hx =>
    -- the member may be of another document, but the value is below the node that gives it
    rw [← hg.file_eq]
    exact standsIn_of_mem_valueFindings hx

/-- **Every finding is about the file that is checked, and stands where its node stands**, and so
does everything that is related to it. -/
theorem standsIn_of_mem_check (h : s.catalog.Loaded) {file : FileId}
    (hx : x ∈ s.evaluate (s.check file)) : x.StandsIn s.catalog file := by
  obtain ⟨d, hd, n, hn, hx | hx⟩ := exists_of_mem_check hx
  · rw [← ((h.mem_nodes_iff hd).1 hn).1]
    exact standsIn_of_mem_referenceFindings h hx
  · rw [← ((h.mem_nodes_iff hd).1 hn).1]
    exact standsIn_of_mem_contentFindings hx

end Snapshot

end Schemata
