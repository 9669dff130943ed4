import Schemata.Proofs.ValueNodes

/-!
# Repeated names and repeated assignments

Two checks look for repeats. One compares the names of the declarations of a place, the other the
members to which the assignments of an instance come. Both walk a list once and tell of each element
whose key occurred before, together with the first element that has the key. What they find is the
same for both up to wording, so that one description covers all findings of repeats of a file
(`Snapshot.SaysRepeat`, `Snapshot.repeats_reported`).

A declaration and an assignment stand in only one list, that of their parent. So no node is reported
twice, and the findings of each list can be counted: there are as many as there are elements with a
key, less the number of keys.
-/

namespace Schemata

section Classes

variable {classes : Text.IdentifierClasses}

/-- Whether a finding says that a name or an assignment is repeated. -/
def Diagnostic.isRepeat (x : Diagnostic) : Bool := x.code == some "duplicate-name"

theorem Diagnostic.isRepeat_iff {x : Diagnostic} :
    x.isRepeat = true ↔ x.code = some "duplicate-name" :=
  beq_iff_eq

namespace Catalog

variable {c : Catalog} {n p u : NodeId} {places : List NodeId} {what : String} {x : Diagnostic}

/-- The lists of declarations of a file whose names have to differ, and what they list: the
classifiers of the document, the members of each entity and the literals of each enumeration. -/
inductive Row (c : Catalog) (file : FileId) : List NodeId → String → Prop
  | classifiers {d : Document} (hd : c.document? file = some d) :
      Row c file (d.classifiers.map d.id) "classifier"
  | members {n : NodeId} {name : String} {id : Option String} (hfile : n.file = file)
      (hn : c.content? n = some (.entity name id)) : Row c file (c.children n) "member"
  | literals {n : NodeId} {name : String} (hfile : n.file = file)
      (hn : c.content? n = some (.enumeration name)) : Row c file (c.children n) "literal"

/-- The check of names walks these lists. -/
theorem row_iff {file : FileId} :
    c.Row file places what ↔ ∃ p, p.file = file ∧ c.siblings? p = some (places, what) := by
  constructor
  · intro hrow
    cases hrow with
    | @classifiers d hd =>
      have hfile : d.rootId.file = file := document?_eq_some hd
      have hown : c.document? d.rootId.file = some d := hfile ▸ hd
      exact ⟨d.rootId, hfile, siblings?_root hown (content?_id hown 0)⟩
    | @members n _ _ hfile hn => exact ⟨n, hfile, siblings?_entity hn⟩
    | @literals n _ hfile hn => exact ⟨n, hfile, siblings?_enumeration hn⟩
  · rintro ⟨p, rfl, hp⟩
    obtain ⟨content, hc, -⟩ := exists_of_siblings? hp
    cases content with
    | root name =>
      obtain ⟨d, hd⟩ := exists_document_of_content? hc
      cases (siblings?_root hd hc).symm.trans hp
      exact .classifiers hd
    | entity name id =>
      cases (siblings?_entity hc).symm.trans hp
      exact .members rfl hc
    | enumeration name =>
      cases (siblings?_enumeration hc).symm.trans hp
      exact .literals rfl hc
    | _ =>
      obtain ⟨node, hnode, hcontent⟩ := exists_node?_of_content? hc
      simp [siblings?, hnode, hcontent] at hp

/-- Only the root of a document is a root. -/
theorem Loaded.index_of_root (h : c.Loaded) {name : String}
    (hp : c.content? p = some (.root name)) :
    p.index = 0 := by
  obtain ⟨d, hd⟩ := exists_document_of_content? hp
  have hsize : p.index < d.size :=
    ((h.drafted_of_document? hd).mem_nodes_iff.1 ((h.mem_nodes_iff hd).2 ⟨rfl, _, hp⟩)).2
  have hk : d.kind? p.index = some .root := (kind?_eq hd).symm.trans (kind?_of_content? hp)
  by_contra hne
  -- any other node has a parent, and a root cannot stand below one
  obtain ⟨i, hi⟩ := (h.tree hd).exists_parent (Nat.pos_of_ne_zero hne) hsize
  obtain ⟨kp, hmem, -⟩ := (h.tree hd).exists_kind_of_parent? hi hk
  cases hmem

/-- What the check of names walks at a node are children of it, in their order. -/
theorem Loaded.siblings_sublist_children (h : c.Loaded)
    (hp : c.siblings? p = some (places, what)) : places.Sublist (c.children p) := by
  obtain ⟨content, hc, ⟨name, d, rfl, hd, rfl⟩ | ⟨-, rfl⟩ | ⟨-, rfl⟩⟩ := exists_of_siblings? hp
  · have hid : p.sibling = d.id := by
      funext i
      rw [NodeId.sibling, Document.id, document?_eq_some hd]
    rw [children_eq hd, h.index_of_root hc, hid]
    exact (List.sublist_append_right d.imports d.classifiers).map d.id
  · exact List.Sublist.refl _
  · exact List.Sublist.refl _

/-- Each of them has a name. -/
theorem Loaded.exists_name?_of_mem_siblings (h : c.Loaded)
    (hp : c.siblings? p = some (places, what)) (hu : u ∈ places) :
    ∃ name, c.name? u = some name := by
  obtain ⟨k, hk, hdeclared⟩ := h.isClassifier_or_of_mem_siblings hp hu
  obtain ⟨content, hc, rfl⟩ := exists_content?_of_kind? hk
  rw [name?_eq_bind, hc, Option.bind_some]
  cases content <;> first
    | exact ⟨_, rfl⟩
    | simp [Content.kind, Kind.isClassifier] at hdeclared

end Catalog

namespace Snapshot

variable {s : Snapshot} {n a : NodeId} {x : Diagnostic}

/-! ### Where repeats are found -/

theorem isRepeat_of_mem_nameFindings (hx : x ∈ s.catalog.nameFindings n) : x.isRepeat = true :=
  Diagnostic.isRepeat_iff.2 (Catalog.code_of_mem_nameFindings hx)

theorem isRepeat_of_mem_assignmentFindings (hx : x ∈ s.evaluate (s.assignmentFindings n)) :
    x.isRepeat = true :=
  Diagnostic.isRepeat_iff.2 (code_of_mem_assignmentFindings hx)

theorem isRepeat_of_isIntrinsic (hx : x.IsIntrinsic) : x.isRepeat = false :=
  Bool.eq_false_iff.2 fun hrepeat ↦ hx.code_ne (Diagnostic.isRepeat_iff.1 hrepeat)

theorem isRepeat_of_isLinking (hx : x.isLinking = true) : x.isRepeat = false := by
  by_contra hrepeat
  rw [Bool.not_eq_false, Diagnostic.isRepeat_iff] at hrepeat
  simp [Diagnostic.isLinking, hrepeat] at hx

/-- Below declarations the check of names finds the repeats. -/
theorem filter_isRepeat_of_siblings {places : List NodeId} {what : String}
    (hn : s.catalog.siblings? n = some (places, what)) :
    (s.evaluate (s.contentFindings n)).filter (·.isRepeat) = s.catalog.nameFindings n := by
  rw [evaluate_contentFindings_of_siblings hn]
  exact List.filter_eq_self.2 fun x hx ↦ isRepeat_of_mem_nameFindings hx

/-- In an instance the check of assignments finds the repeats. -/
theorem filter_isRepeat_of_instantiation {name : String} {r : Reference}
    (hn : s.catalog.content? n = some (.instantiation name r)) :
    (s.evaluate (s.contentFindings n)).filter (·.isRepeat) =
      s.evaluate (s.assignmentFindings n) := by
  have hcomplete : (s.evaluate (s.completenessFindings n name)).filter (·.isRepeat) = [] := by
    refine List.filter_eq_nil_iff.2 fun x hx ↦ ?_
    obtain ⟨p, hp, rfl⟩ := exists_finding_of_mem_completenessFindings hn hx
    simp [isRepeat_of_isIntrinsic (isIntrinsic_finding hp n)]
  rw [evaluate_contentFindings_instantiation hn, List.filter_append, hcomplete, List.nil_append]
  exact List.filter_eq_self.2 fun x hx ↦ isRepeat_of_mem_assignmentFindings hx

/-- No repeats are found in other nodes. -/
theorem filter_isRepeat_eq_nil (hp : s.catalog.siblings? n = none)
    (hn : ∀ name r, s.catalog.content? n ≠ some (.instantiation name r)) :
    (s.evaluate (s.contentFindings n)).filter (·.isRepeat) = [] := by
  refine List.filter_eq_nil_iff.2 fun x hx ↦ ?_
  rcases cases_of_mem_contentFindings hx with hx | ⟨-, name, r, hc⟩ | hx
  · rw [Catalog.nameFindings, hp] at hx
    cases hx
  · exact absurd hc (hn name r)
  · simp [isRepeat_of_isIntrinsic hx]

/-- The repeats that are found in a node are children of it, each found once and in their order. -/
theorem nodes_filter_isRepeat_sublist (h : s.catalog.Loaded) (n : NodeId) :
    (((s.evaluate (s.contentFindings n)).filter (·.isRepeat)).map (·.node)).Sublist
      (s.catalog.children n) := by
  cases hp : s.catalog.siblings? n with
  | some siblings =>
    rw [filter_isRepeat_of_siblings hp]
    exact (Catalog.nodes_nameFindings_sublist hp).trans (h.siblings_sublist_children hp)
  | none =>
    by_cases hn : ∃ name r, s.catalog.content? n = some (.instantiation name r)
    · obtain ⟨name, r, hn⟩ := hn
      rw [filter_isRepeat_of_instantiation hn]
      exact nodes_assignmentFindings_sublist s n
    · rw [filter_isRepeat_eq_nil hp fun name r hc ↦ hn ⟨name, r, hc⟩]
      exact List.nil_sublist _

theorem mem_children_of_isRepeat (h : s.catalog.Loaded)
    (hx : x ∈ s.evaluate (s.contentFindings n)) (hrepeat : x.isRepeat = true) :
    x.node ∈ s.catalog.children n :=
  (nodes_filter_isRepeat_sublist h n).subset
    (List.mem_map_of_mem (List.mem_filter.2 ⟨hx, hrepeat⟩))

/-! ### Repeats of a file -/

/-- The findings of a file that say that a name or an assignment is repeated. -/
def repeatFindings (s : Snapshot) (file : FileId) : List Diagnostic :=
  (s.evaluate (s.check file)).filter (·.isRepeat)

/-- What is to be found about repeats in a file: a declaration that has the name of one before it in
its list, and an assignment that comes to the member to which one before it in its instance comes.
Each is told with the first that has the name or comes to the member. -/
inductive SaysRepeat (s : Snapshot) (file : FileId) (x : Diagnostic) : Prop
  | declared {places : List NodeId} {what : String} {u first : NodeId} {name : String}
      (hrow : s.catalog.Row file places what)
      (hrepeats : RepeatsFirst s.catalog.name? places u first)
      (hname : s.catalog.name? u = some name)
      (hx : x = (Problem.duplicateName what name).report u (s.catalog.range u)
        [⟨first, s.catalog.range first, "first declared here"⟩])
  | assigned {n : NodeId} {name : String} {r : Reference} {a first member : NodeId} {m : Member}
      (hfile : n.file = file) (hn : s.catalog.content? n = some (.instantiation name r))
      (hrepeats : RepeatsFirst s.targetAt? (s.catalog.children n) a first)
      (hmember : s.resolutionAt a = .found member)
      (hm : s.catalog.content? member = some (.member m))
      (hx : x = (Problem.duplicateName "member assignment" m.name).report a (s.catalog.range a)
        [⟨first, s.catalog.range first, "first assigned here"⟩])

section Check

variable {file : FileId} {d : Document} (hd : s.catalog.document? file = some d)
include hd

/-- Repeats are found in contents. -/
theorem repeatFindings_eq_flatMap :
    s.repeatFindings file =
      d.nodes.flatMap fun n ↦ (s.evaluate (s.contentFindings n)).filter (·.isRepeat) := by
  have hreferences : (d.nodes.flatMap fun n ↦ s.evaluate (s.referenceFindings n)).filter
      (·.isRepeat) = [] := by
    refine List.filter_eq_nil_iff.2 fun x hx ↦ ?_
    obtain ⟨n, -, hx⟩ := List.mem_flatMap.1 hx
    simp [isRepeat_of_isLinking (isLinking_of_mem_referenceFindings hx)]
  rw [repeatFindings, evaluate_check hd, List.filter_append, hreferences, List.nil_append,
    List.filter_flatMap]

variable (h : s.catalog.Loaded)
include h

/-- The findings of repeats are those that are to be found. -/
theorem mem_repeatFindings_iff : x ∈ s.repeatFindings file ↔ s.SaysRepeat file x := by
  rw [repeatFindings_eq_flatMap hd, List.mem_flatMap]
  constructor
  · rintro ⟨n, hn, hx⟩
    obtain ⟨rfl, -⟩ := (h.mem_nodes_iff hd).1 hn
    cases hp : s.catalog.siblings? n with
    | some siblings =>
      obtain ⟨places, what⟩ := siblings
      rw [filter_isRepeat_of_siblings hp, Catalog.mem_nameFindings_iff hp] at hx
      obtain ⟨u, first, name, hrepeats, hname, rfl⟩ := hx
      exact .declared (Catalog.row_iff.2 ⟨n, rfl, hp⟩) hrepeats hname rfl
    | none =>
      by_cases hc : ∃ name r, s.catalog.content? n = some (.instantiation name r)
      · obtain ⟨name, r, hc⟩ := hc
        rw [filter_isRepeat_of_instantiation hc, mem_assignmentFindings_iff] at hx
        obtain ⟨a, first, member, hrepeats, hmember, rfl⟩ := hx
        obtain ⟨r', hr'⟩ := h.assignment_of_mem_children hc hrepeats.mem
        obtain ⟨-, -, -, -, -, -, m, hm⟩ := exists_member_of_assignment h hr' hmember
        refine .assigned rfl hc hrepeats (targetAt?_eq_some_iff.1 hmember) hm ?_
        rw [Catalog.name?_of_member hm]
        rfl
      · rw [filter_isRepeat_eq_nil hp fun name r hc' ↦ hc ⟨name, r, hc'⟩] at hx
        cases hx
  · intro hx
    cases hx with
    | declared hrow hrepeats hname hx =>
      obtain ⟨p, rfl, hp⟩ := Catalog.row_iff.1 hrow
      obtain ⟨content, hc, -⟩ := Catalog.exists_of_siblings? hp
      refine ⟨p, (h.mem_nodes_iff hd).2 ⟨rfl, content, hc⟩, ?_⟩
      rw [filter_isRepeat_of_siblings hp, Catalog.mem_nameFindings_iff hp]
      exact ⟨_, _, _, hrepeats, hname, hx⟩
    | @assigned n _ _ _ _ _ _ hfile hc hrepeats hmember hm hx =>
      refine ⟨n, (h.mem_nodes_iff hd).2 ⟨hfile, _, hc⟩, ?_⟩
      rw [filter_isRepeat_of_instantiation hc, mem_assignmentFindings_iff]
      refine ⟨_, _, _, hrepeats, targetAt?_eq_some_iff.2 hmember, ?_⟩
      rw [Catalog.name?_of_member hm]
      exact hx

/-- No node is reported as a repeat twice. -/
theorem nodup_nodes_repeatFindings : ((s.repeatFindings file).map (·.node)).Nodup := by
  rw [repeatFindings_eq_flatMap hd, List.map_flatMap, List.nodup_flatMap]
  refine ⟨fun n _ ↦ (h.children_nodup n).sublist (nodes_filter_isRepeat_sublist h n), ?_⟩
  refine (h.drafted_of_document? hd).nodes_nodup.imp fun {n n'} hne u hu hu' ↦ hne ?_
  -- what is found in a node has that node as its parent
  have hparent := h.mem_children_iff.1 ((nodes_filter_isRepeat_sublist h n).subset hu)
  have hparent' := h.mem_children_iff.1 ((nodes_filter_isRepeat_sublist h n').subset hu')
  exact Option.some.inj (hparent.symm.trans hparent')

/-- The repeats among some children of a node are those that are found in it, if these are among
them. -/
theorem countP_repeatFindings {p : NodeId} (hp : p ∈ d.nodes) {places : List NodeId}
    (hplaces : places ⊆ s.catalog.children p)
    (hall : ∀ x ∈ (s.evaluate (s.contentFindings p)).filter (·.isRepeat), x.node ∈ places) :
    (s.repeatFindings file).countP (fun x ↦ x.node ∈ places) =
      ((s.evaluate (s.contentFindings p)).filter (·.isRepeat)).length := by
  have hparent {n : NodeId} {x : Diagnostic} (hx : x ∈ s.evaluate (s.contentFindings n))
      (hrepeat : x.isRepeat = true) (hmem : x.node ∈ places) : n = p := by
    have hn := h.mem_children_iff.1 (mem_children_of_isRepeat h hx hrepeat)
    exact Option.some.inj (hn.symm.trans (h.mem_children_iff.1 (hplaces hmem)))
  have hfilter := filter_check_eq_filter_contentFindings h hd hp
    (q := fun x ↦ decide (x.node ∈ places) && x.isRepeat) (fun x hx ↦ ?_) fun n hn x hx ↦ ?_
  · rw [repeatFindings, List.countP_eq_length_filter, List.filter_filter, hfilter,
      ← List.filter_filter, List.filter_eq_self.2 fun x hx ↦ decide_eq_true (hall x hx)]
  · simp [isRepeat_of_isLinking hx]
  · by_contra hq
    obtain ⟨hmem, hrepeat⟩ := Bool.and_eq_true_iff.1 (Bool.not_eq_false _ ▸ hq)
    exact hn (hparent hx hrepeat (of_decide_eq_true hmem))

end Check

/-- **Repeats are reported once, with the first that they repeat.** A file is reported to repeat
what is to be found about repeats in it, and nothing else, no node twice. So of the declarations of
a list there are as many reported as it is longer than the number of names in it, and of the
assignments of an instance, as they exceed the members to which they come. An assignment that does
not come to a member is neither reported nor the first that another one repeats. -/
theorem repeats_reported (s : Snapshot) (h : s.catalog.Loaded) {file : FileId} {d : Document}
    (hd : s.catalog.document? file = some d) :
    (∀ x, x ∈ s.repeatFindings file ↔ s.SaysRepeat file x) ∧
    ((s.repeatFindings file).map (·.node)).Nodup ∧
    (∀ places what, s.catalog.Row file places what →
      (∀ u ∈ places, ∃ name, s.catalog.name? u = some name) ∧
      (s.repeatFindings file).countP (fun x ↦ x.node ∈ places) +
        (places.filterMap s.catalog.name?).eraseDups.length = places.length) ∧
    (∀ n name r, n.file = file → s.catalog.content? n = some (.instantiation name r) →
      (s.repeatFindings file).countP (fun x ↦ x.node ∈ s.catalog.children n) +
          ((s.catalog.children n).filterMap s.targetAt?).eraseDups.length =
        ((s.catalog.children n).filterMap s.targetAt?).length) ∧
    ∀ a r, s.catalog.content? a = some (.assignment r) → (∀ t, s.resolutionAt a ≠ .found t) →
      ∀ x ∈ s.repeatFindings file, x.node ≠ a ∧ ∀ y ∈ x.related, y.node ≠ a := by
  refine ⟨fun x ↦ mem_repeatFindings_iff hd h, nodup_nodes_repeatFindings hd h,
    fun places what hrow ↦ ?_, fun n name r hfile hn ↦ ?_, fun a r ha hnone x hx ↦ ?_⟩
  · obtain ⟨p, rfl, hp⟩ := Catalog.row_iff.1 hrow
    obtain ⟨content, hc, -⟩ := Catalog.exists_of_siblings? hp
    have hnamed : ∀ u ∈ places, ∃ name, s.catalog.name? u = some name :=
      fun u hu ↦ h.exists_name?_of_mem_siblings hp hu
    have hlength : (places.filterMap s.catalog.name?).length = places.length := by
      rw [List.length_filterMap_eq_countP, List.countP_eq_length]
      exact fun u hu ↦ Option.isSome_iff_exists.2 (hnamed u hu)
    refine ⟨hnamed, ?_⟩
    have hplaces := (h.siblings_sublist_children hp).subset
    rw [countP_repeatFindings hd h ((h.mem_nodes_iff hd).2 ⟨rfl, content, hc⟩) hplaces,
      filter_isRepeat_of_siblings hp, Catalog.length_nameFindings hp, hlength]
    rw [filter_isRepeat_of_siblings hp]
    exact fun x hx ↦ (Catalog.nodes_nameFindings_sublist hp).subset (List.mem_map_of_mem hx)
  · rw [countP_repeatFindings hd h ((h.mem_nodes_iff hd).2 ⟨hfile, _, hn⟩) (List.Subset.refl _),
      filter_isRepeat_of_instantiation hn, length_assignmentFindings]
    rw [filter_isRepeat_of_instantiation hn]
    exact fun x hx ↦ (nodes_assignmentFindings_sublist s n).subset (List.mem_map_of_mem hx)
  · cases (mem_repeatFindings_iff hd h).1 hx with
    | @declared places what u first name hrow hrepeats hname hx =>
      obtain ⟨p, -, hp⟩ := Catalog.row_iff.1 hrow
      have hother : ∀ v ∈ places, v ≠ a := by
        rintro v hv rfl
        obtain ⟨k, hk, hkind⟩ := h.kind?_of_mem_siblings hp hv
        exact hkind (Option.some.inj (hk.symm.trans (Catalog.kind?_of_content? ha)))
      subst hx
      exact ⟨hother u hrepeats.mem,
        fun y hy ↦ List.mem_singleton.1 hy ▸ hother first hrepeats.first_mem⟩
    | @assigned n _ _ b first _ _ hfile hc hrepeats hmember hm hx =>
      obtain ⟨member, hb, hfirst⟩ := hrepeats.key_eq
      have hother {v : NodeId} (hv : s.targetAt? v = some member) : v ≠ a := by
        rintro rfl
        exact hnone member (targetAt?_eq_some_iff.1 hv)
      subst hx
      exact ⟨hother hb, fun y hy ↦ List.mem_singleton.1 hy ▸ hother hfirst⟩

end Snapshot

end Classes

namespace Snapshot

/-- Two documents. The entity of the first has two members of one name. The second has an
enumeration at place 3, with a literal at 4 whose name two others have, and an instance of the
entity at place 8. Of its four assignments the first and the third come to a member, at places 9 and
13. -/
def ofRepeats : Snapshot :=
  .ofDocuments
    [.drafting ⟨0⟩ "lib" [.declare (.entity ⟨"E", some "e",
      [⟨"x", .attribute, .integer, ⟨none, none, false⟩, false, false, none⟩,
        ⟨"x", .attribute, .string, ⟨none, none, false⟩, false, false, none⟩]⟩)],
    .drafting ⟨1⟩ "app" [.declare (.imports ⟨"lib", [⟨"E", none⟩]⟩),
      .declare (.enumeration ⟨"C", ["a", "b", "a", "a"]⟩),
      .declare (.instantiation ⟨"i", "e", [⟨"x", .scalar (.integer 3)⟩, ⟨"y", .scalar (.integer 3)⟩,
        ⟨"x", .scalar (.integer 4)⟩, ⟨"y", .scalar (.integer 4)⟩]⟩)]]

theorem loaded_ofRepeats : ofRepeats.catalog.Loaded := by
  refine .ofDocuments fun d hd ↦ ?_
  simp only [List.mem_cons, List.not_mem_nil, or_false] at hd
  rcases hd with rfl | rfl <;> exact Document.drafted_drafting _ _ (by decide)

/-- There both later literals are told with the first, and so is the later of the two assignments.
The two assignments of the other name are not reported. -/
theorem repeats_reported_ofRepeats :
    ofRepeats.catalog.Loaded ∧ (∃ d, ofRepeats.catalog.document? ⟨1⟩ = some d) ∧
      (∀ x ∈ ofRepeats.repeatFindings ⟨1⟩, ofRepeats.SaysRepeat ⟨1⟩ x) ∧
      (ofRepeats.repeatFindings ⟨1⟩).map (fun x ↦ (x.node.index, x.related.map (·.node.index))) =
        [(6, [4]), (7, [4]), (13, [9])] ∧
      (ofRepeats.repeatFindings ⟨1⟩).countP
        (fun x ↦ x.node ∈ ofRepeats.catalog.children ⟨⟨1⟩, 3⟩) + 2 = 4 ∧
      (ofRepeats.repeatFindings ⟨1⟩).countP
        (fun x ↦ x.node ∈ ofRepeats.catalog.children ⟨⟨1⟩, 8⟩) + 1 = 2 ∧
      ∀ x ∈ ofRepeats.repeatFindings ⟨1⟩, x.node ≠ ⟨⟨1⟩, 15⟩ := by
  obtain ⟨d, hd⟩ : ∃ d, ofRepeats.catalog.document? ⟨1⟩ = some d := ⟨_, rfl⟩
  obtain ⟨hiff, -, hrows, hinstances, hunresolved⟩ :=
    repeats_reported ofRepeats loaded_ofRepeats hd
  refine ⟨loaded_ofRepeats, ⟨d, hd⟩, fun x hx ↦ (hiff x).1 hx, by decide, ?_, ?_, fun x hx ↦ ?_⟩
  · exact (hrows _ _ (.literals (n := ⟨⟨1⟩, 3⟩) rfl rfl)).2
  · exact hinstances ⟨⟨1⟩, 8⟩ _ _ rfl rfl
  · have hnone : ofRepeats.resolutionAt ⟨⟨1⟩, 15⟩ = .notFound := by decide
    exact (hunresolved ⟨⟨1⟩, 15⟩ _ rfl (by simp [hnone]) x hx).1

end Snapshot

end Schemata
