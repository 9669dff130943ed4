import Schemata.Proofs.Hidden
import Schemata.Proofs.Placement

/-!
# What is found at a value

A value has few nodes: itself and, if it is an array, its elements. What a check finds at these
nodes comes from two sides. Each of the nodes can hold a faulty reference. And the node that gives
the value to a member, which is the member itself or an assignment, has the value compared with that
member. No other node has anything found there (`Snapshot.valueOwner?_of_mem_contentFindings`).

So of the findings of a file those at the nodes of a value are known as a list
(`Snapshot.filter_check_of_gives`): first the references, in the order of the nodes, and then what
is found in the value for its member.
-/

namespace Schemata

variable {classes : Text.IdentifierClasses}

namespace Catalog.Loaded

theorem children_of_value {c : Catalog} (h : c.Loaded) {n : NodeId} {v : Scalar Reference}
    (hn : c.content? n = some (.value v)) : c.children n = [] := by
  obtain ⟨ks, hks, hadmits⟩ := h.admits (kind?_of_content? hn)
  obtain rfl : ks = [] := hadmits
  exact List.map_eq_nil_iff.1 hks

section Value

variable {c : Catalog} (h : c.Loaded) {value : NodeId} {k : Kind} (hk : c.kind? value = some k)
include h hk

/-- The nodes of a value are values, and belong to what the value belongs to. -/
theorem of_mem_valueNodes (hvalue : k.isValue = true) {n : NodeId} (hn : n ∈ c.valueNodes value) :
    c.valueOwner? n = c.valueOwner? value ∧ ∃ k', c.kind? n = some k' ∧ k'.isValue = true := by
  rcases List.mem_cons.1 hn with rfl | hn
  · exact ⟨rfl, k, hk, hvalue⟩
  · obtain ⟨content, hc, rfl⟩ := exists_content?_of_kind? hk
    cases content with
    | array =>
      obtain ⟨v, hv⟩ := h.value_of_mem_children hc hn
      exact ⟨h.valueOwner?_of_array (h.mem_children_iff.1 hn) hc, _, kind?_of_content? hv, rfl⟩
    | value v =>
      rw [h.children_of_value hc] at hn
      cases hn
    | _ => cases hvalue

/-- A value comes before its elements in its document, and these come in their order. -/
theorem valueNodes_sublist {d : Document} (hd : c.document? value.file = some d) :
    (c.valueNodes value).Sublist d.nodes := by
  obtain ⟨content, hc, -⟩ := exists_content?_of_kind? hk
  obtain ⟨i, hi, heq⟩ := List.mem_map.1 ((h.mem_nodes_iff hd).2 ⟨rfl, content, hc⟩)
  have hsublist := (h.tree hd).visits_preorder.cons_children_sublist hi
  have hnodes : c.valueNodes value = (i :: d.children i).map d.id := by
    rw [valueNodes, children_eq hd, List.map_cons, ← heq]
    rfl
  rw [hnodes]
  exact hsublist.map d.id

end Value

end Catalog.Loaded

namespace Snapshot

variable {s : Snapshot} {n member value : NodeId} {x : Diagnostic}

theorem Gives.exists_givenBy {file : FileId} (hg : s.Gives file member value) :
    ∃ n, n.file = file ∧ s.GivenBy n member value := by
  cases hg with
  | default hfile hm hv => exact ⟨member, hfile, .default hm hv⟩
  | @assigned a _ _ _ hfile ha ht hv =>
    exact ⟨a, hfile, .assigned ha (targetAt?_eq_some_iff.2 ht) hv⟩

/-- A value belongs to the node that gives it. -/
theorem GivenBy.valueOwner? (h : s.catalog.Loaded) (hg : s.GivenBy n member value) :
    s.catalog.valueOwner? value = some n ∧
      ∃ k, s.catalog.kind? value = some k ∧ k.isValue = true := by
  cases hg with
  | default hm hv =>
    obtain ⟨hp, hk⟩ := h.isValue_of_default? hm hv
    exact ⟨h.valueOwner?_of_parent hp (Catalog.kind?_of_content? hm) (.inl rfl), hk⟩
  | assigned ha ht hv =>
    obtain ⟨value', k, hv', hp, hk⟩ := h.exists_assigned ha
    obtain rfl : value = value' := Option.some.inj (hv.symm.trans hv')
    exact ⟨h.valueOwner?_of_parent hp (Catalog.kind?_of_content? ha) (.inr rfl), k, hk⟩

/-- The nodes of a value that a file gives to a member stand in that file and are meant for that
member. -/
theorem Gives.of_mem_valueNodes (h : s.catalog.Loaded) {file : FileId}
    (hg : s.Gives file member value) {u : NodeId} (hu : u ∈ s.catalog.valueNodes value) :
    u.file = file ∧ s.memberAt? u = some member ∧
      ∃ k, s.catalog.kind? u = some k ∧ k.isValue = true := by
  obtain ⟨n, rfl, hgiven⟩ := hg.exists_givenBy
  obtain ⟨howner, k, hk, hvalue⟩ := hgiven.valueOwner? h
  obtain ⟨hsame, hkind⟩ := h.of_mem_valueNodes hk hvalue hu
  have hu' := hsame.trans howner
  refine ⟨(Catalog.file_of_valueOwner? hu').symm, ?_, hkind⟩
  cases hgiven with
  | default hm _ => exact memberAt?_of_default hu' hm
  | assigned ha ht _ => rw [memberAt?_of_assigned hu' ha, ht]

/-- A node that gives a value is none itself. -/
theorem GivenBy.exists_content? (hg : s.GivenBy n member value) :
    ∃ content, s.catalog.content? n = some content ∧ content.kind.isValue = false := by
  cases hg with
  | default hm _ => exact ⟨_, hm, rfl⟩
  | assigned ha _ _ => exact ⟨_, ha, rfl⟩

/-- What is found in the content of a node that gives a value is found at that node, or else in the
value for its member. -/
theorem GivenBy.exists_contentFindings_eq (hg : s.GivenBy n member value) :
    ∃ bounds, s.evaluate (s.contentFindings n) =
        bounds ++ s.evaluate (s.valueFindings member value) ∧ ∀ x ∈ bounds, x.node = n := by
  cases hg with
  | @default _ m hm hv =>
    refine ⟨s.evaluate (s.cardinalityFindings n m), ?_, fun x hx ↦ ?_⟩
    · rw [evaluate_contentFindings_member hm, evaluate_memberFindings, hv]
    · obtain ⟨p, -, rfl⟩ := exists_finding_of_mem_cardinalityFindings hx
      rfl
  | assigned ha ht hv => exact ⟨[], evaluate_contentFindings_assignment ha ht hv, nofun⟩

/-- What is found at a value in the content of a node is found in the node to which the value
belongs. -/
theorem valueOwner?_of_mem_contentFindings (h : s.catalog.Loaded)
    (hx : x ∈ s.evaluate (s.contentFindings n)) {k : Kind} (hk : s.catalog.kind? x.node = some k)
    (hvalue : k.isValue = true) : s.catalog.valueOwner? x.node = some n := by
  cases foundBy_of_mem_contentFindings hx with
  | name hx =>
    obtain ⟨places, what, hp, t, name, hsublist, -⟩ :=
      Catalog.exists_mem_nameFindings_iff.1 ⟨x, hx, rfl⟩
    obtain ⟨k', hk', hdeclared⟩ := h.isClassifier_or_of_mem_siblings hp
      (hsublist.mem (List.mem_pair.2 (.inr rfl)))
    obtain rfl : k = k' := Option.some.inj (hk.symm.trans hk')
    cases k <;> simp [Kind.isValue, Kind.isClassifier] at hvalue hdeclared
  | assignment hn hx =>
    obtain rfl : k = .assignment :=
      Option.some.inj (hk.symm.trans (kind?_of_mem_assignmentFindings h hn hx))
    cases hvalue
  | own hn hkind _ hx =>
    rw [hx, show (s.finding _ n).node = n from rfl, Catalog.kind?_of_content? hn,
      Option.some.injEq] at hk
    rw [hk, hvalue] at hkind
    cases hkind
  | given hg hx =>
    obtain ⟨p, u, -, hu, -, -, rfl⟩ := exists_finding_of_mem_valueFindings hx
    obtain ⟨howner, k', hk', hvalue'⟩ := hg.valueOwner? h
    exact (h.of_mem_valueNodes hk' hvalue' hu).1.trans howner

/-- At the nodes of a value, the node that gives it has found in its content what is found in the
value for its member. -/
theorem GivenBy.filter_contentFindings (h : s.catalog.Loaded) (hg : s.GivenBy n member value) :
    (s.evaluate (s.contentFindings n)).filter (fun x ↦ x.node ∈ s.catalog.valueNodes value) =
      s.evaluate (s.valueFindings member value) := by
  obtain ⟨bounds, heq, hbounds⟩ := hg.exists_contentFindings_eq
  obtain ⟨-, k, hk, hvalue⟩ := hg.valueOwner? h
  obtain ⟨content, hc, hother⟩ := hg.exists_content?
  have hn : n ∉ s.catalog.valueNodes value := by
    intro hmem
    obtain ⟨-, k', hk', hvalue'⟩ := h.of_mem_valueNodes hk hvalue hmem
    rw [Catalog.kind?_of_content? hc, Option.some.injEq] at hk'
    rw [hk', hvalue'] at hother
    cases hother
  have hnil : bounds.filter (fun x ↦ x.node ∈ s.catalog.valueNodes value) = [] :=
    List.filter_eq_nil_iff.2 fun x hx hmem ↦ hn (hbounds x hx ▸ of_decide_eq_true hmem)
  rw [heq, List.filter_append, hnil, List.nil_append, List.filter_eq_self]
  intro x hx
  obtain ⟨p, u, -, hu, -, -, rfl⟩ := exists_finding_of_mem_valueFindings hx
  exact decide_eq_true hu

/-- **What is found at the nodes of a value.** In the check of the file that gives it to a member,
these are the findings of the references of its nodes, and then what is found in it for the
member. -/
theorem filter_check_of_gives (h : s.catalog.Loaded) {file : FileId}
    (hg : s.Gives file member value) :
    (s.evaluate (s.check file)).filter (fun x ↦ x.node ∈ s.catalog.valueNodes value) =
      ((s.catalog.valueNodes value).flatMap fun n ↦ s.evaluate (s.referenceFindings n)) ++
        s.evaluate (s.valueFindings member value) := by
  obtain ⟨n, rfl, hgiven⟩ := hg.exists_givenBy
  obtain ⟨howner, k, hk, hvalue⟩ := hgiven.valueOwner? h
  obtain ⟨content, hc, -⟩ := hgiven.exists_content?
  have hfile : n.file = value.file := Catalog.file_of_valueOwner? howner
  obtain ⟨d, hd⟩ := Catalog.exists_document_of_content? hc
  have hnodup : d.nodes.Nodup := (h.drafted_of_document? hd).nodes_nodup
  rw [evaluate_check hd, List.filter_append, List.filter_flatMap, List.filter_flatMap]
  congr 1
  · -- a reference is found at its own node
    rw [flatMap_eq_of_sublist (h.valueNodes_sublist hk (hfile ▸ hd)) hnodup fun u _ hu ↦ ?_]
    · refine List.flatMap_congr fun u hu ↦ List.filter_eq_self.2 fun x hx ↦ ?_
      rw [node_of_mem_referenceFindings hx]
      exact decide_eq_true hu
    · refine List.filter_eq_nil_iff.2 fun x hx ↦ ?_
      rw [node_of_mem_referenceFindings hx]
      simpa using hu
  · -- and of the contents only that of the node that gives the value has findings there
    have hn : n ∈ d.nodes := (h.mem_nodes_iff hd).2 ⟨rfl, content, hc⟩
    rw [flatMap_eq_of_sublist (List.singleton_sublist.2 hn) hnodup fun u _ hu ↦ ?_]
    · exact (List.flatMap_singleton _ n).trans (hgiven.filter_contentFindings h)
    · refine List.filter_eq_nil_iff.2 fun x hx hmem ↦ hu (List.mem_singleton.2 ?_)
      obtain ⟨hsame, k', hk', hvalue'⟩ := h.of_mem_valueNodes hk hvalue (of_decide_eq_true hmem)
      have howner' := valueOwner?_of_mem_contentFindings h hx hk' hvalue'
      rw [hsame, howner, Option.some.injEq] at howner'
      exact howner'.symm

/-- The findings of one code at the nodes of a value are those that are found in the value for its
member, if the code is not one of references. -/
theorem filter_code_check_of_gives (h : s.catalog.Loaded) {file : FileId}
    (hg : s.Gives file member value) {code : String} (hlinking : code ≠ "linking-error")
    (hambiguous : code ≠ "ambiguous-reference") :
    (s.evaluate (s.check file)).filter
        (fun x ↦ x.code == some code && decide (x.node ∈ s.catalog.valueNodes value)) =
      (s.evaluate (s.valueFindings member value)).filter (·.code == some code) := by
  have hreferences : ((s.catalog.valueNodes value).flatMap
      fun n ↦ s.evaluate (s.referenceFindings n)).filter (·.code == some code) = [] := by
    refine List.filter_eq_nil_iff.2 fun x hx hcode ↦ ?_
    obtain ⟨n, -, hx⟩ := List.mem_flatMap.1 hx
    have hlinks := isLinking_of_mem_referenceFindings hx
    simp [Diagnostic.isLinking, eq_of_beq hcode, hlinking, hambiguous] at hlinks
  rw [← List.filter_filter, filter_check_of_gives h hg, List.filter_append, hreferences,
    List.nil_append]

end Snapshot

end Schemata
