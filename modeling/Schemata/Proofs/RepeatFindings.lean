import Schemata.Proofs.Findings

/-!
# What the checks of repeats find

Two checks look for repeats at a node. One compares the names of the declarations below it, the
other the members to which the assignments of an instance come. Each walks a list once, and here is
said for each which elements it tells, with which other one, that these come in the order of the
list, and how many there are.
-/

namespace Schemata

variable {classes : Text.IdentifierClasses}

namespace Catalog

variable {c : Catalog} {p : NodeId} {places : List NodeId} {what : String} {x : Diagnostic}

theorem code_of_mem_nameFindings (hx : x ∈ c.nameFindings p) :
    x.code = some "duplicate-name" := by
  rw [nameFindings] at hx
  split at hx
  · cases hx
  · obtain ⟨y, -, rfl⟩ := List.mem_map.1 hx
    rfl

section Siblings

variable (hp : c.siblings? p = some (places, what))
include hp

/-- Declarations are told by their name. -/
theorem mem_nameFindings_iff :
    x ∈ c.nameFindings p ↔ ∃ u first name, RepeatsFirst c.name? places u first ∧
      c.name? u = some name ∧ x = (Problem.duplicateName what name).report u (c.range u)
        [⟨first, c.range first, "first declared here"⟩] := by
  simp only [nameFindings, hp, List.mem_map,
    mem_repeats_filterMap_iff c.name? (fun n name ↦ (name, n)) places]
  constructor
  · rintro ⟨_, ⟨u, first, name, hrepeats, hname, rfl⟩, rfl⟩
    exact ⟨u, first, name, hrepeats, hname, rfl⟩
  · rintro ⟨u, first, name, hrepeats, hname, rfl⟩
    exact ⟨_, ⟨u, first, name, hrepeats, hname, rfl⟩, rfl⟩

theorem nodes_nameFindings_sublist :
    ((c.nameFindings p).map (·.node)).Sublist places := by
  simp only [nameFindings, hp, List.map_map]
  exact map_repeats_filterMap_sublist c.name? (fun n name ↦ (name, n)) places
    Prod.snd fun _ _ ↦ rfl

theorem length_nameFindings :
    (c.nameFindings p).length + (places.filterMap c.name?).eraseDups.length =
      (places.filterMap c.name?).length := by
  simp only [nameFindings, hp, List.length_map]
  exact length_repeats_filterMap c.name? (fun n name ↦ (name, n)) places

end Siblings

end Catalog

namespace Snapshot

variable {s : Snapshot} {n : NodeId} {x : Diagnostic}

/-- Assignments are told by the name of the member to which they come. -/
theorem mem_assignmentFindings_iff :
    x ∈ s.evaluate (s.assignmentFindings n) ↔ ∃ a first member,
      RepeatsFirst s.targetAt? (s.catalog.children n) a first ∧ s.targetAt? a = some member ∧
        x = (Problem.duplicateName "member assignment" ((s.catalog.name? member).getD "")).report a
          (s.catalog.range a) [⟨first, s.catalog.range first, "first assigned here"⟩] := by
  rw [evaluate_assignmentFindings]
  simp only [List.mem_map, mem_repeats_filterMap_iff s.targetAt?
    (fun a member ↦ (a, (s.catalog.name? member).getD "")) (s.catalog.children n)]
  constructor
  · rintro ⟨_, ⟨a, first, member, hrepeats, hmember, rfl⟩, rfl⟩
    exact ⟨a, first, member, hrepeats, hmember, rfl⟩
  · rintro ⟨a, first, member, hrepeats, hmember, rfl⟩
    exact ⟨_, ⟨a, first, member, hrepeats, hmember, rfl⟩, rfl⟩

theorem code_of_mem_assignmentFindings (hx : x ∈ s.evaluate (s.assignmentFindings n)) :
    x.code = some "duplicate-name" := by
  obtain ⟨a, first, member, -, -, rfl⟩ := mem_assignmentFindings_iff.1 hx
  rfl

variable (s n) in
theorem nodes_assignmentFindings_sublist :
    ((s.evaluate (s.assignmentFindings n)).map (·.node)).Sublist (s.catalog.children n) := by
  rw [evaluate_assignmentFindings, List.map_map]
  exact map_repeats_filterMap_sublist s.targetAt?
    (fun a member ↦ (a, (s.catalog.name? member).getD "")) (s.catalog.children n)
    Prod.fst fun _ _ ↦ rfl

variable (s n) in
theorem length_assignmentFindings :
    (s.evaluate (s.assignmentFindings n)).length +
        ((s.catalog.children n).filterMap s.targetAt?).eraseDups.length =
      ((s.catalog.children n).filterMap s.targetAt?).length := by
  rw [evaluate_assignmentFindings, List.length_map]
  exact length_repeats_filterMap s.targetAt?
    (fun a member ↦ (a, (s.catalog.name? member).getD "")) (s.catalog.children n)

/-! ### What is found at the node itself -/

/-- What is found in the content of a node, and is neither about a repeat nor about a value, is
found at that node. -/
theorem node_of_mem_contentFindings (hx : x ∈ s.evaluate (s.contentFindings n)) {code : String}
    (hcode : x.code = some code)
    (hown : code ∉ ["duplicate-name", "type-mismatch", "array-size", "array-not-unique"]) :
    x.node = n := by
  have hother {code' : String} (hcode' : x.code = some code') : code = code' :=
    Option.some.inj (hcode.symm.trans hcode')
  cases foundBy_of_mem_contentFindings hx with
  | name hx => simp [hother (Catalog.code_of_mem_nameFindings hx)] at hown
  | assignment _ hx => simp [hother (code_of_mem_assignmentFindings hx)] at hown
  | own _ _ _ hx => exact hx ▸ rfl
  | given _ hx =>
    rcases code_of_mem_valueFindings hx with hcode' | hcode' | hcode' <;>
      simp [hother hcode'] at hown

/-- Findings of a code that is neither about references nor about repeats nor about values are found
at a node in its own content. -/
theorem filter_code_check_eq_filter_contentFindings (h : s.catalog.Loaded)
    {content : Content Reference} (hn : s.catalog.content? n = some content) {code : String}
    (hlinking : code ∉ ["linking-error", "ambiguous-reference"])
    (hown : code ∉ ["duplicate-name", "type-mismatch", "array-size", "array-not-unique"]) :
    (s.evaluate (s.check n.file)).filter (fun x ↦ x.code == some code && x.node == n) =
      (s.evaluate (s.contentFindings n)).filter (·.code == some code) := by
  obtain ⟨d, hd⟩ := Catalog.exists_document_of_content? hn
  have hp : n ∈ d.nodes := (h.mem_nodes_iff hd).2 ⟨rfl, _, hn⟩
  rw [filter_check_eq_filter_contentFindings h hd hp (fun x hx ↦ ?_) fun p hp x hx ↦ ?_]
  · refine List.filter_congr fun x hx ↦ ?_
    cases hcode : x.code == some code with
    | false => rfl
    | true => simp [node_of_mem_contentFindings hx (eq_of_beq hcode) hown]
  · rw [Bool.and_eq_false_iff, beq_eq_false_iff_ne]
    refine .inl fun hcode ↦ hlinking ?_
    simpa [Diagnostic.isLinking, hcode] using hx
  · rw [Bool.and_eq_false_iff, beq_eq_false_iff_ne, beq_eq_false_iff_ne, ← not_and_or]
    rintro ⟨hcode, hnode⟩
    exact hp (hnode ▸ (node_of_mem_contentFindings hx hcode hown).symm)

end Snapshot

end Schemata
