import Schemata.Checking
import Schemata.Proofs.Resolution

/-!
# What a check finds at references

A reference is a finding of its own exactly if it comes to no node or to several
(`Resolution.isFault`), and then it is one, at the node that holds it. Findings are told apart by
what they are about: a reference (`Diagnostic.isLinking`), a name that two nodes have, or neither
(`Diagnostic.IsIntrinsic`). The nodes of a document and the names that have to differ in it are read
here once, for all checks.
-/

namespace Schemata

variable {classes : Text.IdentifierClasses}

/-- Whether a reference is a finding: it comes to no node or to several. -/
def Resolution.isFault : Resolution → Bool
  | .notFound | .ambiguous _ => true
  | .found _ | .blocked => false

namespace Resolution

variable {r : Resolution}

theorem isFault_iff : r.isFault = true ↔ r = .notFound ∨ ∃ targets, r = .ambiguous targets := by
  cases r <;> simp [isFault]

theorem isFault_eq_false_iff :
    r.isFault = false ↔ r ≠ .notFound ∧ ∀ targets, r ≠ .ambiguous targets := by
  cases r <;> simp [isFault]

/-- Otherwise it comes to a node, or there is nothing to look it up in. -/
theorem found_or_blocked (h : r.isFault = false) : (∃ t, r = .found t) ∨ r = .blocked := by
  cases r with
  | found t => exact .inl ⟨t, rfl⟩
  | blocked => exact .inr rfl
  | notFound => cases h
  | ambiguous targets => cases h

end Resolution

/-- Whether a problem is that a reference comes to no node or to several. -/
def Problem.isLinking : Problem → Bool
  | .unresolved _ | .ambiguous .. => true
  | _ => false

/-- Whether a finding says that a reference comes to no node or to several. -/
def Diagnostic.isLinking (x : Diagnostic) : Bool :=
  x.code == some "linking-error" || x.code == some "ambiguous-reference"

/-- Tools know by its code whether a finding is about a reference. -/
theorem Problem.isLinking_report (p : Problem) (n : NodeId) (range : Range)
    (related : List Related) : (p.report n range related).isLinking = p.isLinking := by
  cases p <;> simp [Diagnostic.isLinking, report, code, isLinking]

/-- Whether a problem is one of a value, of bounds or of an instance by itself, and so neither about
a reference nor about a name that two nodes have. -/
def Problem.isIntrinsic : Problem → Bool
  | .unresolved _ | .ambiguous .. | .duplicateName .. => false
  | _ => true

/-- Whether a finding reports such a problem. -/
def Diagnostic.IsIntrinsic (x : Diagnostic) : Prop :=
  ∃ p : Problem, p.isIntrinsic = true ∧ ∃ n range related, x = p.report n range related

/-- A report of such a problem is such a finding, whatever it points to. -/
theorem Problem.isIntrinsic_report {p : Problem} (h : p.isIntrinsic = true) (n : NodeId)
    (range : Range) (related : List Related) : (p.report n range related).IsIntrinsic :=
  ⟨p, h, n, range, related, rfl⟩

/-- A finding about a value, bounds or an instance is not taken for one about a reference. -/
theorem Diagnostic.IsIntrinsic.isLinking_eq_false {x : Diagnostic} (h : x.IsIntrinsic) :
    x.isLinking = false := by
  obtain ⟨p, hp, n, range, related, rfl⟩ := h
  rw [Problem.isLinking_report]
  cases p <;> first | rfl | cases hp

/-- Nor for one about a name that two nodes have. -/
theorem Diagnostic.IsIntrinsic.code_ne {x : Diagnostic} (h : x.IsIntrinsic) :
    x.code ≠ some "duplicate-name" := by
  obtain ⟨p, hp, n, range, related, rfl⟩ := h
  cases p <;> simp [Problem.isIntrinsic, Problem.report, Problem.code] at hp ⊢

/-- What is found in names is not taken for a finding about a reference either. -/
theorem Catalog.isLinking_of_mem_nameFindings {c : Catalog} {n : NodeId} {x : Diagnostic}
    (hx : x ∈ c.nameFindings n) : x.isLinking = false := by
  rw [Catalog.nameFindings] at hx
  split at hx
  · cases hx
  · obtain ⟨y, -, rfl⟩ := List.mem_map.1 hx
    exact Problem.isLinking_report _ _ _ _

namespace Document

variable {d : Document} {n : NodeId}

/-- The nodes of a document, in the order in which they are checked. -/
def nodes (d : Document) : List NodeId := d.preorder.map d.id

/-- Every place of a drafted document is checked, because the tree reaches all of them. -/
theorem Drafted.mem_nodes_iff (h : d.Drafted) :
    n ∈ d.nodes ↔ n.file = d.file ∧ n.index < d.size := by
  rw [nodes, List.mem_map]
  constructor
  · rintro ⟨i, hi, rfl⟩
    exact ⟨rfl, List.mem_range.1 (h.preorder_perm.mem_iff.1 hi)⟩
  · rintro ⟨hfile, hsize⟩
    have hmem : n.index ∈ d.preorder := h.preorder_perm.mem_iff.2 (List.mem_range.2 hsize)
    refine ⟨n.index, hmem, ?_⟩
    rw [id, ← hfile]

/-- And none is checked twice. -/
theorem Drafted.nodes_nodup (h : d.Drafted) : d.nodes.Nodup := by
  have hpreorder : d.preorder.Nodup := h.preorder_perm.nodup_iff.2 List.nodup_range
  exact hpreorder.map fun i j hij ↦ congrArg NodeId.index hij

end Document

/-! ### Names that have to differ -/

namespace Catalog

variable {c : Catalog} {n p u : NodeId} {places : List NodeId} {what : String}

theorem exists_node?_of_content? {content : Content Reference} (h : c.content? n = some content) :
    ∃ node, c.node? n = some node ∧ node.content = content :=
  Option.map_eq_some_iff.1 h

/-- Imports are not among the names that have to differ in a document. -/
theorem siblings?_root {d : Document} {name : String} (hd : c.document? n.file = some d)
    (hn : c.content? n = some (.root name)) :
    c.siblings? n = some (d.classifiers.map d.id, "classifier") := by
  obtain ⟨node, hnode, hc⟩ := exists_node?_of_content? hn
  simp only [siblings?, hnode, hc, hd, Option.map_some, Option.some.injEq, Prod.mk.injEq, and_true]
  refine List.map_congr_left fun i _ ↦ ?_
  rw [NodeId.sibling, Document.id, document?_eq_some hd]

theorem siblings?_entity {name : String} {id : Option String}
    (hn : c.content? n = some (.entity name id)) :
    c.siblings? n = some (c.children n, "member") := by
  obtain ⟨node, hnode, hc⟩ := exists_node?_of_content? hn
  simp only [siblings?, hnode, hc]

theorem siblings?_enumeration {name : String} (hn : c.content? n = some (.enumeration name)) :
    c.siblings? n = some (c.children n, "literal") := by
  obtain ⟨node, hnode, hc⟩ := exists_node?_of_content? hn
  simp only [siblings?, hnode, hc]

/-- Names have to differ among the classifiers of a document, the members of an entity and the
literals of an enumeration. -/
theorem exists_of_siblings? (h : c.siblings? p = some (places, what)) :
    ∃ content, c.content? p = some content ∧
      ((∃ name d, content = .root name ∧ c.document? p.file = some d ∧
          places = d.classifiers.map d.id) ∨
        ((∃ name id, content = .entity name id) ∧ places = c.children p) ∨
        ((∃ name, content = .enumeration name) ∧ places = c.children p)) := by
  cases hc : c.content? p with
  | none =>
    rw [siblings?, Option.map_eq_none_iff.1 hc] at h
    cases h
  | some content =>
    refine ⟨content, rfl, ?_⟩
    cases content with
    | root name =>
      obtain ⟨d, hd⟩ := exists_document_of_content? hc
      rw [siblings?_root hd hc, Option.some.injEq, Prod.mk.injEq] at h
      exact .inl ⟨name, d, rfl, hd, h.1.symm⟩
    | entity name id =>
      rw [siblings?_entity hc, Option.some.injEq, Prod.mk.injEq] at h
      exact .inr (.inl ⟨⟨name, id, rfl⟩, h.1.symm⟩)
    | enumeration name =>
      rw [siblings?_enumeration hc, Option.some.injEq, Prod.mk.injEq] at h
      exact .inr (.inr ⟨⟨name, rfl⟩, h.1.symm⟩)
    | _ =>
      obtain ⟨node, hnode, hcontent⟩ := exists_node?_of_content? hc
      simp [siblings?, hnode, hcontent] at h

/-- All these names stand in one file, that of the node above them. -/
theorem file_of_mem_siblings (h : c.siblings? p = some (places, what)) (hu : u ∈ places) :
    u.file = p.file := by
  obtain ⟨content, -, ⟨name, d, -, hd, rfl⟩ | ⟨-, rfl⟩ | ⟨-, rfl⟩⟩ := exists_of_siblings? h
  · obtain ⟨i, -, rfl⟩ := List.mem_map.1 hu
    exact document?_eq_some hd
  · exact file_of_mem_children hu
  · exact file_of_mem_children hu

end Catalog

namespace Catalog.Loaded

variable {c : Catalog} {file : FileId} {d : Document}

/-- The documents that a loaded catalog finds are drafted. -/
theorem drafted_of_document? (h : c.Loaded) (hd : c.document? file = some d) : d.Drafted :=
  h.drafted d (List.mem_of_find?_eq_some hd)

/-- The nodes of a document are those that the catalog has for its file. -/
theorem mem_nodes_iff (h : c.Loaded) (hd : c.document? file = some d) {n : NodeId} :
    n ∈ d.nodes ↔ n.file = file ∧ ∃ content, c.content? n = some content := by
  rw [(h.drafted_of_document? hd).mem_nodes_iff, document?_eq_some hd]
  refine and_congr_right fun hfile ↦ ?_
  rw [content?_eq (hfile ▸ hd), ← d.isSome_node?_iff, Document.content?]
  cases d.node? n.index <;> simp

end Catalog.Loaded

namespace Snapshot

variable {s : Snapshot} {n : NodeId}

/-! ### Findings of references -/

/-- A reference at fault is one finding, at the node that holds it. -/
theorem exists_referenceFinding (h : (s.resolutionAt n).isFault = true) :
    ∃ x, s.evaluate (s.referenceFindings n) = [x] ∧ x.node = n ∧ x.isLinking = true := by
  cases hr : (s.catalog.content? n).bind (·.reference?) with
  | none =>
    rw [resolutionAt_of_no_reference hr] at h
    cases h
  | some sr =>
    obtain ⟨content, hn, hr⟩ := Option.bind_eq_some_iff.1 hr
    simp only [referenceFindings, hn, hr, evaluate, Query.eval_bind, eval_resolution]
    rcases Resolution.isFault_iff.1 h with hres | ⟨targets, hres⟩
    · rw [hres]
      exact ⟨_, rfl, rfl, Problem.isLinking_report _ _ _ _⟩
    · rw [hres]
      exact ⟨_, rfl, rfl, Problem.isLinking_report _ _ _ _⟩

/-- A reference that comes to a node is no finding, and neither is one that is blocked: what blocks
it is reported where it is. -/
theorem referenceFindings_eq_nil (h : (s.resolutionAt n).isFault = false) :
    s.evaluate (s.referenceFindings n) = [] := by
  rw [referenceFindings]
  split
  · rename_i content hn
    split
    · rw [evaluate, Query.eval_bind, eval_resolution]
      rcases Resolution.found_or_blocked h with ⟨t, hres⟩ | hres
      · rw [hres]
        rfl
      · rw [hres]
        rfl
    · rfl
  · rfl

theorem node_of_mem_referenceFindings {x : Diagnostic}
    (hx : x ∈ s.evaluate (s.referenceFindings n)) : x.node = n := by
  cases hfault : (s.resolutionAt n).isFault with
  | true =>
    obtain ⟨y, hy, hnode, -⟩ := exists_referenceFinding hfault
    rw [hy] at hx
    rw [List.mem_singleton.1 hx, hnode]
  | false =>
    rw [referenceFindings_eq_nil hfault] at hx
    cases hx

theorem isLinking_of_mem_referenceFindings {x : Diagnostic}
    (hx : x ∈ s.evaluate (s.referenceFindings n)) : x.isLinking = true := by
  cases hfault : (s.resolutionAt n).isFault with
  | true =>
    obtain ⟨y, hy, -, hlinking⟩ := exists_referenceFinding hfault
    rw [hy] at hx
    rw [List.mem_singleton.1 hx, hlinking]
  | false =>
    rw [referenceFindings_eq_nil hfault] at hx
    cases hx

theorem referenceFindings_eq_nil_iff :
    s.evaluate (s.referenceFindings n) = [] ↔ (s.resolutionAt n).isFault = false := by
  refine ⟨fun h ↦ ?_, referenceFindings_eq_nil⟩
  by_contra hfault
  obtain ⟨x, hx, -⟩ := exists_referenceFinding (by simpa using hfault)
  rw [h] at hx
  cases hx

end Snapshot

end Schemata
