import Schemata.Proofs.ReferenceFindings
import Schemata.Proofs.Repeats

/-!
# What a check finds

The findings of a document, node by node and without questions. What is found in the content of a
node comes from one of a few checks (`Snapshot.FoundBy`), which says where it is found and what it
can be about. It is never about a reference. So the findings that are can be counted: there is one
at each faulty reference of the document and none elsewhere (`Snapshot.countP_isLinking_check`).
-/

namespace Schemata

variable {classes : Text.IdentifierClasses}

/-- Elements for which nothing is listed can be left out. -/
theorem flatMap_eq_of_sublist {α β : Type} {f : α → List β} {xs ys : List α} (h : xs.Sublist ys)
    (hys : ys.Nodup) (hnil : ∀ y ∈ ys, y ∉ xs → f y = []) : ys.flatMap f = xs.flatMap f := by
  induction h with
  | slnil => rfl
  | @cons xs ys y h ih =>
    obtain ⟨hy, hys⟩ := List.nodup_cons.1 hys
    rw [List.flatMap_cons, hnil y List.mem_cons_self fun hmem ↦ hy (h.subset hmem), List.nil_append]
    exact ih hys fun z hz ↦ hnil z (List.mem_cons_of_mem y hz)
  | @cons_cons xs ys y h ih =>
    obtain ⟨hy, hys⟩ := List.nodup_cons.1 hys
    rw [List.flatMap_cons, List.flatMap_cons, ih hys fun z hz hmem ↦ ?_]
    refine hnil z (List.mem_cons_of_mem y hz) fun hmem' ↦ ?_
    rcases List.mem_cons.1 hmem' with rfl | hmem'
    · exact hy hz
    · exact hmem hmem'

namespace Catalog

variable {c : Catalog} {n value : NodeId}

/-- The nodes of a value: the value itself and, if it is an array, its elements. -/
def valueNodes (c : Catalog) (value : NodeId) : List NodeId := value :: c.children value

theorem file_of_mem_valueNodes (hn : n ∈ c.valueNodes value) : n.file = value.file := by
  rcases List.mem_cons.1 hn with rfl | hn
  · rfl
  · exact file_of_mem_children hn

end Catalog

namespace Snapshot

variable {s : Snapshot} {n member value : NodeId} {x : Diagnostic}

/-! ### Findings of contents -/

/-- Each mismatch is a finding at the value that does not fit. -/
theorem evaluate_typeFindings (member value : NodeId) :
    s.evaluate (s.typeFindings member value) =
      (s.evaluate (s.mismatches member value)).map fun m ↦
        s.finding (.typeMismatch m.expected m.found) m.value := by
  rw [typeFindings, evaluate, Query.eval_bind]
  rfl

/-- An element is reported if an earlier one has its key. -/
theorem evaluate_uniquenessFindings (array : NodeId) :
    s.evaluate (s.uniquenessFindings array) =
      (repeats ((s.catalog.children array).filterMap fun element ↦
        (s.evaluate (s.elementKey? element)).map (·, element))).map
        fun (element, _) ↦ s.finding .arrayNotUnique element := by
  rw [uniquenessFindings, evaluate, Query.eval_bind, Query.eval_choose, Query.eval_pure]
  simp only [Query.eval_bind, Query.eval_pure, evaluate]

/-- An array is checked for its size, and for repeats if its elements have to be unique. -/
theorem evaluate_arrayFindings {member value : NodeId} {m : Member}
    (hm : s.catalog.member? member = some m) (hv : s.catalog.content? value = some .array) :
    s.evaluate (s.arrayFindings member value) =
      s.sizeFindings m value ++
        if m.unique then s.evaluate (s.uniquenessFindings value) else [] := by
  simp only [arrayFindings, hm, hv, evaluate]
  split
  · rw [Query.eval_bind]
    rfl
  · rfl

theorem arrayFindings_eq_nil {member value : NodeId}
    (h : s.catalog.member? member = none ∨ s.catalog.content? value ≠ some .array) :
    s.evaluate (s.arrayFindings member value) = [] := by
  rw [arrayFindings]
  split
  · split
    · rename_i m hm _ hv
      rcases h with h | h
      · rw [hm] at h
        cases h
      · exact absurd hv h
    · rfl
  · rfl

theorem evaluate_valueFindings (member value : NodeId) :
    s.evaluate (s.valueFindings member value) =
      s.evaluate (s.typeFindings member value) ++ s.evaluate (s.arrayFindings member value) := by
  simp only [valueFindings, evaluate, Query.eval_bind, Query.eval_pure]

theorem evaluate_cardinalityFindings (member : NodeId) (m : Member) :
    s.evaluate (s.cardinalityFindings member m) =
      (m.cardinality.faults ++ s.evaluate (s.uniquenessFaults member m)).map fun f ↦
        (Problem.invalidCardinality f.message).report member (s.catalog.range member) [] := by
  simp only [cardinalityFindings, evaluate, Query.eval_bind, Query.eval_pure]

theorem evaluate_memberFindings (n : NodeId) (m : Member) :
    s.evaluate (s.memberFindings n m) =
      s.evaluate (s.cardinalityFindings n m) ++
        match s.catalog.default? n with
        | some value => s.evaluate (s.valueFindings n value)
        | none => [] := by
  simp only [memberFindings, evaluate, Query.eval_bind]
  cases s.catalog.default? n with
  | none => simp
  | some value => simp

/-- One finding names all members that are missing. -/
theorem evaluate_completenessFindings {name : String} {entity : NodeId} {entityName : String}
    {id : Option String} (ht : s.targetAt? n = some entity)
    (hc : s.catalog.content? entity = some (.entity entityName id)) :
    s.evaluate (s.completenessFindings n name) =
      let missing := (s.catalog.requiredNames entity).filter fun m ↦
        !(s.catalog.assignedNames n).contains m
      if missing.isEmpty then []
      else [(Problem.missingMembers entityName name missing).report n (s.catalog.range n) []] := by
  simp only [completenessFindings, evaluate, Query.eval_bind, eval_target?, ht, hc]
  split <;> rfl

/-- Where the entity is not known, no member is missing. -/
theorem completenessFindings_eq_nil {name : String} (ht : s.targetAt? n = none) :
    s.evaluate (s.completenessFindings n name) = [] := by
  simp only [completenessFindings, evaluate, Query.eval_bind, eval_target?, ht]
  rfl

theorem evaluate_assignmentFindings (n : NodeId) :
    s.evaluate (s.assignmentFindings n) =
      (repeats ((s.catalog.children n).filterMap fun a ↦
        (s.targetAt? a).map fun member ↦ (member, (a, (s.catalog.name? member).getD "")))).map
        fun ((a, name), (first, _)) ↦
          (Problem.duplicateName "member assignment" name).report a (s.catalog.range a)
            [⟨first, s.catalog.range first, "first assigned here"⟩] := by
  rw [assignmentFindings, evaluate, Query.eval_bind, Query.eval_choose, Query.eval_pure]
  simp only [Query.eval_bind, Query.eval_pure, eval_target?]

theorem evaluate_contentFindings_member {m : Member}
    (hn : s.catalog.content? n = some (.member m)) :
    s.evaluate (s.contentFindings n) = s.evaluate (s.memberFindings n m) := by
  simp only [contentFindings, hn]

theorem evaluate_contentFindings_instantiation {name : String} {r : Reference}
    (hn : s.catalog.content? n = some (.instantiation name r)) :
    s.evaluate (s.contentFindings n) =
      s.evaluate (s.completenessFindings n name) ++ s.evaluate (s.assignmentFindings n) := by
  simp only [contentFindings, hn, evaluate, Query.eval_bind, Query.eval_pure]

/-- A value that is assigned is compared with the member that the assignment comes to. -/
theorem evaluate_contentFindings_assignment {r : Reference} {member value : NodeId}
    (hn : s.catalog.content? n = some (.assignment r)) (ht : s.targetAt? n = some member)
    (hv : s.catalog.assigned? n = some value) :
    s.evaluate (s.contentFindings n) = s.evaluate (s.valueFindings member value) := by
  simp only [contentFindings, hn, evaluate, Query.eval_bind, eval_target?, ht, hv]

/-- Where the member is not known, the value is not compared. -/
theorem contentFindings_assignment_eq_nil {r : Reference}
    (hn : s.catalog.content? n = some (.assignment r))
    (h : s.targetAt? n = none ∨ s.catalog.assigned? n = none) :
    s.evaluate (s.contentFindings n) = [] := by
  simp only [contentFindings, hn, evaluate, Query.eval_bind, eval_target?]
  rcases h with h | h
  · rw [h]
    rfl
  · rw [h]
    cases s.targetAt? n <;> rfl

/-- The nodes below which names have to differ. -/
theorem evaluate_contentFindings_names {content : Content Reference}
    (hn : s.catalog.content? n = some content)
    (hk : content.kind = .root ∨ content.kind = .entity ∨ content.kind = .enumeration) :
    s.evaluate (s.contentFindings n) = s.catalog.nameFindings n := by
  rw [contentFindings, hn]
  cases content with
  | root | entity | enumeration => rfl
  | _ => simp [Content.kind] at hk

theorem evaluate_contentFindings_of_siblings {places : List NodeId} {what : String}
    (hn : s.catalog.siblings? n = some (places, what)) :
    s.evaluate (s.contentFindings n) = s.catalog.nameFindings n := by
  obtain ⟨content, hc, hcases⟩ := Catalog.exists_of_siblings? hn
  refine evaluate_contentFindings_names hc ?_
  rcases hcases with ⟨_, _, rfl, -⟩ | ⟨⟨_, _, rfl⟩, -⟩ | ⟨⟨_, rfl⟩, -⟩ <;> simp [Content.kind]

/-- Nothing is found in the contents of other nodes. -/
theorem contentFindings_eq_nil
    (hn : ∀ k ∈ s.catalog.kind? n, k = .importClause ∨ k = .importItem ∨ k = .literal ∨
      k = .type ∨ k = .value ∨ k = .array) :
    s.evaluate (s.contentFindings n) = [] := by
  rw [contentFindings]
  cases hc : s.catalog.content? n with
  | none => rfl
  | some content =>
    have hk := hn _ (Catalog.kind?_of_content? hc)
    cases content with
    | importClause | importItem | literal | type | value | array => rfl
    | _ => simp [Content.kind] at hk

/-! ### What is found in a value -/

theorem exists_content?_of_typeAt? {type : DataType} (hn : s.typeAt? n = some type) :
    ∃ content, s.catalog.content? n = some content := by
  cases hc : s.catalog.content? n with
  | some content => exact ⟨content, rfl⟩
  | none =>
    change (s.infer n).eval _ = some type at hn
    rw [infer, hc] at hn
    cases hn

theorem exists_content?_of_elementKey? {key : ElementKey}
    (hn : s.evaluate (s.elementKey? n) = some key) :
    ∃ content, s.catalog.content? n = some content := by
  cases hc : s.catalog.content? n with
  | some content => exact ⟨content, rfl⟩
  | none =>
    rw [elementKey?, hc] at hn
    cases hn

/-- A mismatch is one of the scalar that is compared. -/
theorem value_of_scalarMismatch? {expected : DataType} {v : NodeId} {m : Mismatch}
    (hm : s.evaluate (s.scalarMismatch? expected v) = some m) :
    m.value = v ∧ ∃ content, s.catalog.content? v = some content := by
  rw [scalarMismatch?, evaluate, Query.eval_bind, eval_dataType] at hm
  cases htype : s.typeAt? v with
  | none =>
    rw [htype] at hm
    cases hm
  | some found =>
    rw [htype] at hm
    refine ⟨?_, exists_content?_of_typeAt? htype⟩
    dsimp only at hm
    split at hm
    · cases hm
    · rw [← Option.some.inj hm]

/-- A mismatch is one of the value or of an element of it. -/
theorem value_of_mem_mismatches {member value : NodeId} {m : Mismatch}
    (hm : m ∈ s.evaluate (s.mismatches member value)) :
    m.value ∈ s.catalog.valueNodes value ∧
      ∃ content, s.catalog.content? m.value = some content := by
  rw [mismatches] at hm
  split at hm
  · rename_i declared _
    rw [evaluate, Query.eval_bind] at hm
    split at hm
    · rename_i expected _
      split at hm
      · rename_i content hc
        split at hm
        · rw [Query.eval_pure, List.mem_singleton] at hm
          exact hm ▸ ⟨List.mem_cons_self, _, hc⟩
        · rw [Query.eval_bind, Query.eval_pure, Option.mem_toList] at hm
          obtain ⟨hvalue, hcontent⟩ := value_of_scalarMismatch? hm
          rw [hvalue]
          exact ⟨List.mem_cons_self, hcontent⟩
        · rw [Query.eval_choose] at hm
          obtain ⟨element, helement, hm⟩ := List.mem_filterMap.1 hm
          obtain ⟨hvalue, hcontent⟩ := value_of_scalarMismatch? hm
          rw [hvalue]
          exact ⟨List.mem_cons_of_mem _ helement, hcontent⟩
        · rw [Query.eval_bind, Query.eval_pure, List.mem_singleton] at hm
          exact hm ▸ ⟨List.mem_cons_self, _, hc⟩
      · cases hm
    · cases hm
  · cases hm

/-- What is wrong with the size of an array is found at the array. -/
theorem exists_finding_of_mem_sizeFindings {m : Member} {array : NodeId}
    (hx : x ∈ s.sizeFindings m array) :
    ∃ p, p.isIntrinsic = true ∧ p.code = "array-size" ∧ x = s.finding p array := by
  simp only [sizeFindings] at hx
  split at hx
  · exact ⟨_, rfl, rfl, List.mem_singleton.1 hx⟩
  · split at hx
    · exact ⟨_, rfl, rfl, List.mem_singleton.1 hx⟩
    · cases hx

/-- A repeated element is found at that element. -/
theorem exists_finding_of_mem_uniquenessFindings {array : NodeId}
    (hx : x ∈ s.evaluate (s.uniquenessFindings array)) :
    ∃ element content, element ∈ s.catalog.children array ∧
      s.catalog.content? element = some content ∧ x = s.finding .arrayNotUnique element := by
  rw [evaluate_uniquenessFindings] at hx
  obtain ⟨⟨element, first⟩, hrepeat, rfl⟩ := List.mem_map.1 hx
  obtain ⟨keyed, hkeyed, rfl⟩ := List.mem_map.1 (mem_of_mem_repeats hrepeat).1
  obtain ⟨element, helement, heq⟩ := List.mem_filterMap.1 hkeyed
  obtain ⟨key, hkey, rfl⟩ := Option.map_eq_some_iff.1 heq
  obtain ⟨content, hc⟩ := exists_content?_of_elementKey? hkey
  exact ⟨element, content, helement, hc, rfl⟩

/-- What is found in an array is about its size or about repeated elements. -/
theorem exists_finding_of_mem_arrayFindings
    (hx : x ∈ s.evaluate (s.arrayFindings member value)) :
    ∃ p u content, u ∈ s.catalog.valueNodes value ∧ s.catalog.content? u = some content ∧
      p.isIntrinsic = true ∧ (p.code = "array-size" ∨ p.code = "array-not-unique") ∧
      x = s.finding p u := by
  cases hm : s.catalog.member? member with
  | none =>
    rw [arrayFindings_eq_nil (.inl hm)] at hx
    cases hx
  | some m =>
    by_cases hv : s.catalog.content? value = some .array
    · rw [evaluate_arrayFindings hm hv] at hx
      rcases List.mem_append.1 hx with hx | hx
      · obtain ⟨p, hp, hcode, rfl⟩ := exists_finding_of_mem_sizeFindings hx
        exact ⟨p, value, _, List.mem_cons_self, hv, hp, .inl hcode, rfl⟩
      · split at hx
        · obtain ⟨element, content, helement, hc, rfl⟩ :=
            exists_finding_of_mem_uniquenessFindings hx
          exact ⟨_, element, content, List.mem_cons_of_mem _ helement, hc, rfl, .inr rfl, rfl⟩
        · cases hx
    · rw [arrayFindings_eq_nil (.inr hv)] at hx
      cases hx

theorem code_of_mem_typeFindings (hx : x ∈ s.evaluate (s.typeFindings member value)) :
    x.code = some "type-mismatch" := by
  rw [evaluate_typeFindings] at hx
  obtain ⟨m, -, rfl⟩ := List.mem_map.1 hx
  rfl

/-- What is found in a value is about its type or, if it is an array, its size or its elements. -/
theorem code_of_mem_valueFindings (hx : x ∈ s.evaluate (s.valueFindings member value)) :
    x.code = some "type-mismatch" ∨ x.code = some "array-size" ∨
      x.code = some "array-not-unique" := by
  rw [evaluate_valueFindings] at hx
  rcases List.mem_append.1 hx with hx | hx
  · exact .inl (code_of_mem_typeFindings hx)
  · obtain ⟨p, u, -, -, -, -, hcode, rfl⟩ := exists_finding_of_mem_arrayFindings hx
    exact .inr (hcode.imp (congrArg some) (congrArg some))

/-- Nothing is found in a value but at it or at its elements, for whatever member it is meant. -/
theorem exists_finding_of_mem_valueFindings
    (hx : x ∈ s.evaluate (s.valueFindings member value)) :
    ∃ p u content, u ∈ s.catalog.valueNodes value ∧ s.catalog.content? u = some content ∧
      p.isIntrinsic = true ∧ x = s.finding p u := by
  rw [evaluate_valueFindings] at hx
  rcases List.mem_append.1 hx with hx | hx
  · rw [evaluate_typeFindings] at hx
    obtain ⟨m, hm, rfl⟩ := List.mem_map.1 hx
    obtain ⟨hmem, content, hc⟩ := value_of_mem_mismatches hm
    exact ⟨_, m.value, content, hmem, hc, rfl, rfl⟩
  · obtain ⟨p, u, content, hu, hc, hp, -, rfl⟩ := exists_finding_of_mem_arrayFindings hx
    exact ⟨p, u, content, hu, hc, hp, rfl⟩

/-! ### From which check a finding comes -/

variable (s) in
/-- Whether a node gives a value to a member: a member its default to itself, and an assignment its
value to the member to which it comes. -/
inductive GivenBy : NodeId → NodeId → NodeId → Prop
  | default {member value : NodeId} {m : Member}
      (hm : s.catalog.content? member = some (.member m))
      (hv : s.catalog.default? member = some value) : GivenBy member member value
  | assigned {a member value : NodeId} {r : Reference}
      (ha : s.catalog.content? a = some (.assignment r)) (ht : s.targetAt? a = some member)
      (hv : s.catalog.assigned? a = some value) : GivenBy a member value

theorem GivenBy.file_eq (hg : s.GivenBy n member value) : value.file = n.file := by
  cases hg with
  | default _ hv =>
    obtain ⟨i, -, rfl⟩ := Option.map_eq_some_iff.1 hv
    rfl
  | assigned _ _ hv =>
    obtain ⟨i, -, rfl⟩ := Option.map_eq_some_iff.1 hv
    rfl

variable (s) in
/-- From which check what is found in the content of a node can come: that of names that have to
differ, that of repeated assignments, one of the node itself, which is a member or an instance, or
that of a value which the node gives to a member. -/
inductive FoundBy (n : NodeId) (x : Diagnostic) : Prop
  | name (hx : x ∈ s.catalog.nameFindings n)
  | assignment {name : String} {r : Reference}
      (hn : s.catalog.content? n = some (.instantiation name r))
      (hx : x ∈ s.evaluate (s.assignmentFindings n))
  | own {p : Problem} {content : Content Reference} (hn : s.catalog.content? n = some content)
      (hkind : content.kind.isValue = false) (hp : p.isIntrinsic = true) (hx : x = s.finding p n)
  | given {member value : NodeId} (hg : s.GivenBy n member value)
      (hx : x ∈ s.evaluate (s.valueFindings member value))

/-- What is wrong with bounds is found at the member. -/
theorem exists_finding_of_mem_cardinalityFindings {m : Member}
    (hx : x ∈ s.evaluate (s.cardinalityFindings n m)) :
    ∃ p, p.isIntrinsic = true ∧ x = s.finding p n := by
  rw [evaluate_cardinalityFindings] at hx
  obtain ⟨fault, -, rfl⟩ := List.mem_map.1 hx
  exact ⟨_, rfl, rfl⟩

/-- That members are missing is found at the instance. -/
theorem exists_finding_of_mem_completenessFindings {name : String} {r : Reference}
    (hn : s.catalog.content? n = some (.instantiation name r))
    (hx : x ∈ s.evaluate (s.completenessFindings n name)) :
    ∃ p, p.isIntrinsic = true ∧ x = s.finding p n := by
  cases ht : s.targetAt? n with
  | none =>
    rw [completenessFindings_eq_nil ht] at hx
    cases hx
  | some entity =>
    obtain ⟨entityName, id, hc⟩ := exists_entity_of_instantiation hn ht
    simp only [evaluate_completenessFindings ht hc] at hx
    split at hx
    · cases hx
    · exact ⟨_, rfl, List.mem_singleton.1 hx⟩

/-- What is found in the content of a node comes from one of its checks. -/
theorem foundBy_of_mem_contentFindings (hx : x ∈ s.evaluate (s.contentFindings n)) :
    s.FoundBy n x := by
  cases hn : s.catalog.content? n with
  | none =>
    rw [contentFindings, hn] at hx
    cases hx
  | some content =>
    cases content with
    | root | entity | enumeration =>
      rw [evaluate_contentFindings_names hn (by simp [Content.kind])] at hx
      exact .name hx
    | member m =>
      rw [evaluate_contentFindings_member hn, evaluate_memberFindings] at hx
      rcases List.mem_append.1 hx with hx | hx
      · obtain ⟨p, hp, hx⟩ := exists_finding_of_mem_cardinalityFindings hx
        exact .own hn rfl hp hx
      · split at hx
        · rename_i value hv
          exact .given (.default hn hv) hx
        · cases hx
    | instantiation name r =>
      rw [evaluate_contentFindings_instantiation hn] at hx
      rcases List.mem_append.1 hx with hx | hx
      · obtain ⟨p, hp, hx⟩ := exists_finding_of_mem_completenessFindings hn hx
        exact .own hn rfl hp hx
      · exact .assignment hn hx
    | assignment r =>
      cases ht : s.targetAt? n with
      | none =>
        rw [contentFindings_assignment_eq_nil hn (.inl ht)] at hx
        cases hx
      | some member =>
        cases hv : s.catalog.assigned? n with
        | none =>
          rw [contentFindings_assignment_eq_nil hn (.inr hv)] at hx
          cases hx
        | some value =>
          rw [evaluate_contentFindings_assignment hn ht hv] at hx
          exact .given (.assigned hn ht hv) hx
    | _ =>
      rw [contentFindings, hn] at hx
      cases hx

/-! ### What is found in contents is not about references -/

theorem isIntrinsic_finding {p : Problem} (hp : p.isIntrinsic = true) (n : NodeId) :
    (s.finding p n).IsIntrinsic :=
  Problem.isIntrinsic_report hp _ _ _

/-- What is found in the content of a node is about a repeated name, about a repeated assignment of
an instance, or intrinsic. -/
theorem cases_of_mem_contentFindings (hx : x ∈ s.evaluate (s.contentFindings n)) :
    x ∈ s.catalog.nameFindings n ∨
      (x ∈ s.evaluate (s.assignmentFindings n) ∧ ∃ name r,
        s.catalog.content? n = some (.instantiation name r)) ∨ x.IsIntrinsic := by
  cases foundBy_of_mem_contentFindings hx with
  | name hx => exact .inl hx
  | assignment hn hx => exact .inr (.inl ⟨hx, _, _, hn⟩)
  | own _ _ hp hx => exact .inr (.inr (hx ▸ isIntrinsic_finding hp n))
  | given hg hx =>
    obtain ⟨p, u, -, -, -, hp, rfl⟩ := exists_finding_of_mem_valueFindings hx
    exact .inr (.inr (isIntrinsic_finding hp u))

theorem isLinking_of_mem_assignmentFindings {x : Diagnostic}
    (hx : x ∈ s.evaluate (s.assignmentFindings n)) : x.isLinking = false := by
  rw [evaluate_assignmentFindings] at hx
  obtain ⟨y, -, rfl⟩ := List.mem_map.1 hx
  exact Problem.isLinking_report _ _ _ _

theorem isLinking_of_mem_contentFindings {x : Diagnostic}
    (hx : x ∈ s.evaluate (s.contentFindings n)) : x.isLinking = false := by
  rcases cases_of_mem_contentFindings hx with hx | ⟨hx, -⟩ | hx
  · exact Catalog.isLinking_of_mem_nameFindings hx
  · exact isLinking_of_mem_assignmentFindings hx
  · exact hx.isLinking_eq_false

/-! ### The findings of a document -/

/-- The references of all nodes are checked first, and then the contents of all nodes. -/
theorem evaluate_check {file : FileId} {d : Document} (hd : s.catalog.document? file = some d) :
    s.evaluate (s.check file) =
      (d.nodes.flatMap fun n ↦ s.evaluate (s.referenceFindings n)) ++
        d.nodes.flatMap fun n ↦ s.evaluate (s.contentFindings n) := by
  simp only [check, hd, evaluate, Query.eval_bind, Query.eval_collect, Query.eval_pure]
  rfl

theorem evaluate_checkAll :
    s.evaluate s.checkAll = s.catalog.files.map fun file ↦ (file, s.evaluate (s.check file)) := by
  simp only [checkAll, evaluate, Query.eval_forEach, Query.eval_bind, Query.eval_pure]

/-- Findings of a kind that only one node has in its content, and that are not about references, are
all that the check of the file has of this kind. -/
theorem filter_check_eq_filter_contentFindings (h : s.catalog.Loaded) {file : FileId} {d : Document}
    (hd : s.catalog.document? file = some d) {p : NodeId} (hp : p ∈ d.nodes)
    {q : Diagnostic → Bool} (hlinking : ∀ x, x.isLinking = true → q x = false)
    (hother : ∀ n, n ≠ p → ∀ x ∈ s.evaluate (s.contentFindings n), q x = false) :
    (s.evaluate (s.check file)).filter q = (s.evaluate (s.contentFindings p)).filter q := by
  have hnodup : d.nodes.Nodup := (h.drafted_of_document? hd).nodes_nodup
  have hreferences :
      (d.nodes.flatMap fun n ↦ s.evaluate (s.referenceFindings n)).filter q = [] := by
    refine List.filter_eq_nil_iff.2 fun x hx ↦ ?_
    obtain ⟨n, -, hx⟩ := List.mem_flatMap.1 hx
    simp [hlinking x (isLinking_of_mem_referenceFindings hx)]
  rw [evaluate_check hd, List.filter_append, hreferences, List.nil_append, List.filter_flatMap,
    flatMap_eq_of_sublist (List.singleton_sublist.2 hp) hnodup fun n _ hn ↦ ?_]
  · exact List.flatMap_singleton _ p
  · refine List.filter_eq_nil_iff.2 fun x hx ↦ ?_
    simp [hother n (fun heq ↦ hn (List.mem_singleton.2 heq)) x hx]

/-- What is found in a file is found about the reference of a node of its document, or in the
content of one. -/
theorem exists_of_mem_check {file : FileId} {x : Diagnostic}
    (hx : x ∈ s.evaluate (s.check file)) : ∃ d, s.catalog.document? file = some d ∧
      ∃ n ∈ d.nodes, x ∈ s.evaluate (s.referenceFindings n) ∨
        x ∈ s.evaluate (s.contentFindings n) := by
  cases hd : s.catalog.document? file with
  | none =>
    rw [check, hd] at hx
    cases hx
  | some d =>
    rw [evaluate_check hd, List.mem_append, List.mem_flatMap, List.mem_flatMap] at hx
    obtain ⟨n, hn, hx⟩ | ⟨n, hn, hx⟩ := hx
    · exact ⟨d, rfl, n, hn, .inl hx⟩
    · exact ⟨d, rfl, n, hn, .inr hx⟩

/-- What is found about a reference is found at its own node. -/
theorem mem_referenceFindings_of_isLinking {file : FileId} {x : Diagnostic}
    (hx : x ∈ s.evaluate (s.check file)) (hlinking : x.isLinking = true) :
    x ∈ s.evaluate (s.referenceFindings x.node) := by
  obtain ⟨d, -, n, -, hx | hx⟩ := exists_of_mem_check hx
  · rw [node_of_mem_referenceFindings hx]
    exact hx
  · rw [isLinking_of_mem_contentFindings hx] at hlinking
    cases hlinking

/-- What is found and is not about a reference is found in a content. -/
theorem exists_mem_contentFindings {file : FileId} {x : Diagnostic}
    (hx : x ∈ s.evaluate (s.check file)) (hlinking : x.isLinking = false) :
    ∃ n, x ∈ s.evaluate (s.contentFindings n) := by
  obtain ⟨d, -, n, -, hx | hx⟩ := exists_of_mem_check hx
  · rw [isLinking_of_mem_referenceFindings hx] at hlinking
    cases hlinking
  · exact ⟨n, hx⟩

/-- A reference that comes to no node or to several is found once in the check of its file. -/
theorem countP_isLinking_check (h : s.catalog.Loaded) (hn : (s.resolutionAt n).isFault = true) :
    (s.evaluate (s.check n.file)).countP (fun x ↦ x.isLinking && x.node == n) = 1 := by
  have hnode : ∃ content, s.catalog.content? n = some content := by
    cases hc : s.catalog.content? n with
    | some content => exact ⟨content, rfl⟩
    | none =>
      rw [resolutionAt_of_no_reference (by rw [hc]; rfl)] at hn
      cases hn
  obtain ⟨content, hc⟩ := hnode
  obtain ⟨d, hd⟩ := Catalog.exists_document_of_content? hc
  have hmem : n ∈ d.nodes := (h.mem_nodes_iff hd).2 ⟨rfl, content, hc⟩
  have hnodup : d.nodes.Nodup := (h.drafted_of_document? hd).nodes_nodup
  -- a finding at another node is not counted
  have hother (ns : List NodeId) (hns : n ∉ ns) :
      (ns.flatMap fun n' ↦ s.evaluate (s.referenceFindings n')).countP
        (fun x ↦ x.isLinking && x.node == n) = 0 := by
    refine List.countP_eq_zero.2 fun x hx ↦ ?_
    obtain ⟨n', hn', hx⟩ := List.mem_flatMap.1 hx
    rw [node_of_mem_referenceFindings hx]
    have hne : n' ≠ n := fun heq ↦ hns (heq ▸ hn')
    simp [hne]
  have hcontents : (d.nodes.flatMap fun n' ↦ s.evaluate (s.contentFindings n')).countP
      (fun x ↦ x.isLinking && x.node == n) = 0 := by
    refine List.countP_eq_zero.2 fun x hx ↦ ?_
    obtain ⟨n', -, hx⟩ := List.mem_flatMap.1 hx
    simp [isLinking_of_mem_contentFindings hx]
  -- the node stands once in the list, so that the findings split around its own
  obtain ⟨before, after, heq⟩ := List.append_of_mem hmem
  rw [heq] at hnodup
  have hbefore : n ∉ before := fun hin ↦
    (List.nodup_append.1 hnodup).2.2 n hin n List.mem_cons_self rfl
  have hafter : n ∉ after := (List.nodup_cons.1 (List.nodup_append.1 hnodup).2.1).1
  obtain ⟨x, hx, hxn, hlinking⟩ := exists_referenceFinding hn
  rw [evaluate_check hd, List.countP_append, hcontents, heq, List.flatMap_append, List.flatMap_cons,
    List.countP_append, List.countP_append, hother before hbefore, hother after hafter, hx]
  simp [hxn, hlinking]

end Snapshot

end Schemata
