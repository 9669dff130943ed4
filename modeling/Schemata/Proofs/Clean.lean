import Schemata.Proofs.Values

/-!
# Documents in which nothing is found

The check of a document finds nothing exactly if the document is well-formed
(`Snapshot.check_eq_nil_iff`). Each kind of check has its own lemma, which says when it finds
nothing at a node. Put together they say so of every node of a file, and thereby of the document,
because the nodes of a document are those of its file.
-/

namespace Schemata

/-! ### Names -/

namespace Catalog

variable {c : Catalog} {n : NodeId}

theorem nameFindings_eq_nil_iff {places : List NodeId} {what : String}
    (hn : c.siblings? n = some (places, what)) :
    c.nameFindings n = [] ↔ c.DistinctNames places := by
  rw [nameFindings, hn]
  show List.map _ _ = [] ↔ _
  rw [List.map_eq_nil_iff]
  exact repeats_filterMap_eq_nil_iff c.name? (fun n name ↦ (name, n)) places

theorem name?_of_member {m : Member} (hn : c.content? n = some (.member m)) :
    c.name? n = some m.name := by
  rw [name?_eq_bind, hn]
  rfl

theorem mem_assignedNames_iff {name : String} :
    name ∈ c.assignedNames n ↔
      ∃ a ∈ c.children n, ∃ r, c.content? a = some (.assignment r) ∧ r.text = name := by
  rw [assignedNames, List.mem_filterMap]
  refine exists_congr fun a ↦ and_congr_right fun _ ↦ ?_
  constructor
  · intro h
    split at h
    · rename_i r hr
      exact ⟨r, hr, Option.some.inj h⟩
    · cases h
  · rintro ⟨r, hr, rfl⟩
    rw [hr]

theorem mem_requiredNames_iff {name : String} :
    name ∈ c.requiredNames n ↔ ∃ member ∈ c.children n, ∃ m,
      c.content? member = some (.member m) ∧ m.role = .attribute ∧ c.default? member = none ∧
        m.name = name := by
  rw [requiredNames, List.mem_filterMap]
  refine exists_congr fun member ↦ and_congr_right fun _ ↦ ?_
  constructor
  · intro h
    split at h
    · rename_i m hm
      split at h
      · rename_i hboth
        exact ⟨m, member?_eq_some_iff.1 hm, hboth.1, hboth.2, Option.some.inj h⟩
      · cases h
    · cases h
  · rintro ⟨m, hc, hrole, hdefault, rfl⟩
    simp [member?_eq_some_iff.2 hc, hrole, hdefault]

end Catalog

/-! ### Bounds -/

theorem Cardinality.le_unbounded (n : UInt64) : n ≤ unbounded := by
  rw [UInt64.le_iff_toNat_le]
  exact Nat.le_of_lt_succ n.toNat_lt

theorem Cardinality.faults_eq_nil_iff (c : Cardinality) : c.faults = [] ↔ c.Sensible := by
  have hmin : ¬ c.max < c.min ↔ ∀ l ∈ c.lower, ∀ u ∈ c.upper, l ≤ u := by
    rw [UInt64.not_lt, max, min]
    cases c.lower with
    | none => simp
    | some l =>
      cases c.upper with
      | none =>
        simp [le_unbounded l]
      | some u => simp
  have hzero : (c.upper = some 0 ∧ c.min = 0) ↔
      c.upper = some 0 ∧ (c.lower = none ∨ c.lower = some 0) := by
    rw [min]
    cases c.lower <;> simp
  rw [faults, List.append_eq_nil_iff]
  constructor
  · rintro ⟨hfirst, hsecond⟩
    refine ⟨hmin.1 fun hlt ↦ ?_, fun hboth ↦ ?_⟩
    · rw [if_pos hlt] at hfirst
      cases hfirst
    · rw [if_pos (hzero.2 hboth)] at hsecond
      cases hsecond
  · rintro ⟨hle, hnot⟩
    exact ⟨if_neg (hmin.2 hle), if_neg fun hboth ↦ hnot (hzero.1 hboth)⟩

namespace Snapshot

section Classes

variable {classes : Text.IdentifierClasses}

variable {s : Snapshot} {n : NodeId}

theorem evaluate_literalCount? {r : Reference}
    (hn : s.catalog.content? n = some (.type (.enumeration r))) :
    s.evaluate (s.literalCount? n) =
      (s.targetAt? n).map fun e ↦ (s.catalog.children e).length := by
  rw [literalCount?, evaluate, Query.eval_bind, eval_target?]
  cases ht : s.targetAt? n with
  | none => rfl
  | some e =>
    obtain ⟨name, hc⟩ := exists_enumeration_of_enumerationType hn ht
    simp only [hc]
    rfl

/-- The upper bound of unique values is faulty only if the type has fewer values. -/
theorem uniquenessFaults_eq_nil_iff {m : Member} {t : NodeId} {w : MemberType Reference}
    (hw : s.catalog.memberType? n = some (t, w)) :
    s.evaluate (s.uniquenessFaults n m) = [] ↔
      (m.unique = true → ∀ u ∈ m.cardinality.upper, w = .boolean → u ≤ 2) ∧
      (m.unique = true → ∀ u ∈ m.cardinality.upper, ∀ r e, w = .enumeration r →
        s.targetAt? t = some e → u.toNat ≤ (s.catalog.children e).length) := by
  rw [uniquenessFaults]
  cases hunique : m.unique with
  | false => simp [evaluate]
  | true =>
    cases hupper : m.cardinality.upper with
    | none => simp [evaluate]
    | some upper =>
      simp only [hw]
      cases w with
      | boolean => simp [evaluate]
      | enumeration r =>
        have hcount := evaluate_literalCount? (Catalog.content?_of_memberType? hw)
        rw [evaluate] at hcount
        show Query.eval _ (s.literalCount? t >>= _) = [] ↔ _
        rw [Query.eval_bind, hcount]
        cases s.targetAt? t with
        | none => simp
        | some e => simp
      | _ => simp [evaluate]

/-- Nothing is found in the bounds of a member exactly if they make sense. -/
theorem cardinalityFindings_eq_nil_iff (h : s.catalog.Loaded) {m : Member}
    (hn : s.catalog.content? n = some (.member m)) :
    s.evaluate (s.cardinalityFindings n m) = [] ↔ s.Bounded n m := by
  obtain ⟨t, w, hw, -⟩ := h.exists_memberType hn
  rw [evaluate_cardinalityFindings, List.map_eq_nil_iff, List.append_eq_nil_iff,
    Cardinality.faults_eq_nil_iff, uniquenessFaults_eq_nil_iff hw]
  constructor
  · rintro ⟨hsensible, hbooleans, hliterals⟩
    refine ⟨hsensible, fun hunique u hu t' hw' ↦ ?_, fun hunique u hu t' r e hw' he ↦ ?_⟩
    · cases hw.symm.trans hw'
      exact hbooleans hunique u hu rfl
    · cases hw.symm.trans hw'
      exact hliterals hunique u hu r e rfl (targetAt?_eq_some_iff.2 he)
  · rintro ⟨hsensible, hbooleans, hliterals⟩
    refine ⟨hsensible, fun hunique u hu heq ↦ ?_, fun hunique u hu r e heq he ↦ ?_⟩
    · exact hbooleans hunique u hu t (heq ▸ hw)
    · exact hliterals hunique u hu t r e (heq ▸ hw) (targetAt?_eq_some_iff.1 he)

/-! ### Instances -/

/-- An assignment by the name of a member comes to a member of that name. -/
theorem exists_targetAt?_of_assignment (h : s.catalog.Loaded) {name : String} {r r' : Reference}
    {entity a member : NodeId} (hn : s.catalog.content? n = some (.instantiation name r'))
    (ht : s.targetAt? n = some entity) (ha : a ∈ s.catalog.children n)
    (hr : s.catalog.content? a = some (.assignment r)) (hm : member ∈ s.catalog.children entity)
    (hname : s.catalog.name? member = some r.text) : ∃ t, s.targetAt? a = some t := by
  obtain ⟨entityName, id, hc⟩ := exists_entity_of_instantiation hn ht
  have hparent : s.catalog.parent? a = some n := h.mem_children_iff.1 ha
  have hscope : s.candidatesAt a = some (.ofDeclared (s.catalog.namedChildren entity)) := by
    rw [candidatesAt_assignment hr hparent, ht, Option.bind_some, hc]
  obtain ⟨t, hlookup⟩ :=
    Scope.exists_lookup_ofDeclared (Catalog.mem_namedChildren_iff.2 ⟨hm, hname⟩)
  refine ⟨t, targetAt?_eq_some_iff.2 ?_⟩
  rw [resolutionAt_of_reference h hr rfl, hscope]
  exact hlookup

/-- Nothing is missing in an instance exactly if it assigns, by name, every attribute of its entity
that has no default. -/
theorem completenessFindings_eq_nil_iff (h : s.catalog.Loaded) {name : String} {r : Reference}
    {entity : NodeId} (hn : s.catalog.content? n = some (.instantiation name r))
    (ht : s.targetAt? n = some entity) :
    s.evaluate (s.completenessFindings n name) = [] ↔
      ∀ member ∈ s.catalog.children entity, ∀ m,
        s.catalog.content? member = some (.member m) → m.role = .attribute →
          s.catalog.default? member = none → ∃ a ∈ s.catalog.children n, ∃ t,
            s.resolutionAt a = .found t ∧ s.catalog.name? t = some m.name := by
  obtain ⟨entityName, id, hc⟩ := exists_entity_of_instantiation hn ht
  have hnames : s.evaluate (s.completenessFindings n name) = [] ↔
      ∀ x ∈ s.catalog.requiredNames entity, x ∈ s.catalog.assignedNames n := by
    rw [evaluate_completenessFindings ht hc]
    simp [List.isEmpty_iff]
  rw [hnames]
  constructor
  · intro hall member hmember m hm hrole hdefault
    obtain ⟨a, ha, r', hr', htext⟩ := Catalog.mem_assignedNames_iff.1
      (hall m.name (Catalog.mem_requiredNames_iff.2 ⟨member, hmember, m, hm, hrole, hdefault, rfl⟩))
    have hname : s.catalog.name? member = some r'.text := by
      rw [htext]
      exact Catalog.name?_of_member hm
    obtain ⟨t, hta⟩ := exists_targetAt?_of_assignment h hn ht ha hr' hmember hname
    obtain ⟨-, -, -, -, -, hnamet, -⟩ := exists_member_of_assignment h hr' hta
    exact ⟨a, ha, t, targetAt?_eq_some_iff.1 hta, htext ▸ hnamet⟩
  · intro hall x hx
    obtain ⟨member, hmember, m, hm, hrole, hdefault, rfl⟩ := Catalog.mem_requiredNames_iff.1 hx
    obtain ⟨a, ha, t, hta, hnamet⟩ := hall member hmember m hm hrole hdefault
    obtain ⟨r', hr'⟩ := h.assignment_of_mem_children hn ha
    obtain ⟨-, -, -, -, -, hname, -⟩ :=
      exists_member_of_assignment h hr' (targetAt?_eq_some_iff.2 hta)
    exact Catalog.mem_assignedNames_iff.2
      ⟨a, ha, r', hr', Option.some.inj (hname.symm.trans hnamet)⟩

/-- Nothing is found in the assignments of an instance exactly if no two come to one member. -/
theorem assignmentFindings_eq_nil_iff :
    s.evaluate (s.assignmentFindings n) = [] ↔
      (s.catalog.children n).Pairwise fun a b ↦
        ∀ t, s.resolutionAt a = .found t → s.resolutionAt b ≠ .found t := by
  rw [evaluate_assignmentFindings, List.map_eq_nil_iff]
  have hrepeats := repeats_filterMap_eq_nil_iff s.targetAt?
    (fun a member ↦ (a, (s.catalog.name? member).getD "")) (s.catalog.children n)
  rw [hrepeats]
  simp only [ne_eq, targetAt?_eq_some_iff]

/-- Without a known entity no assignment of an instance comes to a member. -/
theorem resolutionAt_ne_found_of_no_entity (h : s.catalog.Loaded) {name : String} {r : Reference}
    (hn : s.catalog.content? n = some (.instantiation name r)) (ht : s.targetAt? n = none)
    {a : NodeId} (ha : a ∈ s.catalog.children n) (t : NodeId) : s.resolutionAt a ≠ .found t := by
  intro hta
  obtain ⟨r', hr'⟩ := h.assignment_of_mem_children hn ha
  obtain ⟨p, entity, hp, hentity, -⟩ :=
    exists_member_of_assignment h hr' (targetAt?_eq_some_iff.2 hta)
  obtain rfl : n = p := Option.some.inj ((h.mem_children_iff.1 ha).symm.trans hp)
  rw [ht] at hentity
  cases hentity

/-- Without a known entity nothing is found in an instance. -/
theorem contentFindings_of_no_entity (h : s.catalog.Loaded) {name : String} {r : Reference}
    (hn : s.catalog.content? n = some (.instantiation name r)) (ht : s.targetAt? n = none) :
    s.evaluate (s.contentFindings n) = [] := by
  rw [evaluate_contentFindings_instantiation hn, completenessFindings_eq_nil ht, List.nil_append,
    assignmentFindings_eq_nil_iff]
  exact List.pairwise_of_forall_mem_list fun a ha b _ t hta ↦
    absurd hta (resolutionAt_ne_found_of_no_entity h hn ht ha t)

theorem contentFindings_instantiation_eq_nil_iff (h : s.catalog.Loaded) {name : String}
    {r : Reference} (hn : s.catalog.content? n = some (.instantiation name r)) :
    s.evaluate (s.contentFindings n) = [] ↔
      ∀ entity, s.resolutionAt n = .found entity → s.Complete n entity := by
  cases ht : s.targetAt? n with
  | none =>
    refine iff_of_true (contentFindings_of_no_entity h hn ht) fun entity hentity ↦ ?_
    rw [targetAt?_eq_some_iff.2 hentity] at ht
    cases ht
  | some entity =>
    rw [evaluate_contentFindings_instantiation hn, List.append_eq_nil_iff,
      completenessFindings_eq_nil_iff h hn ht, assignmentFindings_eq_nil_iff]
    constructor
    · rintro ⟨hassigns, honce⟩ entity' hentity
      obtain rfl : entity = entity' :=
        Option.some.inj (ht.symm.trans (targetAt?_eq_some_iff.2 hentity))
      exact ⟨hassigns, honce⟩
    · intro hcomplete
      have hentity := hcomplete entity (targetAt?_eq_some_iff.1 ht)
      exact ⟨hentity.assigns, hentity.once⟩

/-! ### Node by node -/

section Linked

variable {file : FileId}
  (hlinked : ∀ n : NodeId, n.file = file → (s.resolutionAt n).isFault = false)
include hlinked

theorem contentFindings_member_eq_nil_iff (h : s.catalog.Loaded) {m : Member}
    (hfile : n.file = file) (hn : s.catalog.content? n = some (.member m)) :
    s.evaluate (s.contentFindings n) = [] ↔
      s.Bounded n m ∧ ∀ value, s.catalog.default? n = some value → s.Fits n m value := by
  rw [evaluate_contentFindings_member hn, evaluate_memberFindings, List.append_eq_nil_iff,
    cardinalityFindings_eq_nil_iff h hn]
  refine and_congr_right fun _ ↦ ?_
  cases hv : s.catalog.default? n with
  | none => simp
  | some value =>
    have hfits := valueFindings_eq_nil_iff_of_gives h hlinked (.default hfile hn hv) hn
    simp [hfits]

theorem contentFindings_assignment_eq_nil_iff (h : s.catalog.Loaded) {r : Reference}
    (hfile : n.file = file) (hn : s.catalog.content? n = some (.assignment r)) :
    s.evaluate (s.contentFindings n) = [] ↔
      ∀ member m value, s.resolutionAt n = .found member →
        s.catalog.content? member = some (.member m) → s.catalog.assigned? n = some value →
          s.Fits member m value := by
  obtain ⟨value, -, hv, -⟩ := h.exists_assigned hn
  cases ht : s.targetAt? n with
  | none =>
    rw [contentFindings_assignment_eq_nil hn (.inl ht)]
    refine iff_of_true rfl fun member m value hmember ↦ ?_
    rw [targetAt?_eq_some_iff.2 hmember] at ht
    cases ht
  | some member =>
    obtain ⟨-, -, -, -, -, -, m, hm⟩ := exists_member_of_assignment h hn ht
    have hfound := targetAt?_eq_some_iff.1 ht
    rw [evaluate_contentFindings_assignment hn ht hv,
      valueFindings_eq_nil_iff_of_gives h hlinked (.assigned hfile hn hfound hv) hm]
    constructor
    · intro hfits member' m' value' hmember hm' hv'
      obtain rfl : member = member' :=
        Option.some.inj (ht.symm.trans (targetAt?_eq_some_iff.2 hmember))
      obtain rfl : value = value' := Option.some.inj (hv.symm.trans hv')
      cases hm.symm.trans hm'
      exact hfits
    · intro hall
      exact hall member m value hfound hm hv

end Linked

/-! ### The whole document -/

/-- Nothing is found in a document exactly if nothing is found at any of its nodes. -/
theorem check_eq_nil_iff_forall (h : s.catalog.Loaded) {file : FileId} {d : Document}
    (hd : s.catalog.document? file = some d) :
    s.evaluate (s.check file) = [] ↔ ∀ n : NodeId, n.file = file →
      s.evaluate (s.referenceFindings n) = [] ∧ s.evaluate (s.contentFindings n) = [] := by
  rw [evaluate_check hd, List.append_eq_nil_iff, List.flatMap_eq_nil_iff, List.flatMap_eq_nil_iff]
  constructor
  · rintro ⟨hreferences, hcontents⟩ n hfile
    cases hc : s.catalog.content? n with
    | some content =>
      have hmem : n ∈ d.nodes := (h.mem_nodes_iff hd).2 ⟨hfile, content, hc⟩
      exact ⟨hreferences n hmem, hcontents n hmem⟩
    | none =>
      have hblocked := resolutionAt_of_no_reference (s := s) (n := n) (by rw [hc]; rfl)
      refine ⟨referenceFindings_eq_nil (by rw [hblocked]; rfl), contentFindings_eq_nil ?_⟩
      simp [Catalog.kind?, hc]
  · intro hall
    have hnode : ∀ n ∈ d.nodes, n.file = file := fun n hn ↦ ((h.mem_nodes_iff hd).1 hn).1
    exact ⟨fun n hn ↦ (hall n (hnode n hn)).1, fun n hn ↦ (hall n (hnode n hn)).2⟩

/-- A document in which nothing is found is well-formed. -/
theorem wellFormed_of_check_eq_nil (h : s.catalog.Loaded) {file : FileId} {d : Document}
    (hd : s.catalog.document? file = some d) (hcheck : s.evaluate (s.check file) = []) :
    s.WellFormed file := by
  have hall := (check_eq_nil_iff_forall h hd).1 hcheck
  have hlinked : ∀ n : NodeId, n.file = file → (s.resolutionAt n).isFault = false :=
    fun n hfile ↦ referenceFindings_eq_nil_iff.1 (hall n hfile).1
  have hcontent (n : NodeId) (hfile : n.file = file) := (hall n hfile).2
  refine ⟨?_, ?_, ?_, ?_, ?_, ?_, ?_⟩
  · intro n hfile
    exact Resolution.isFault_eq_false_iff.1 (hlinked n hfile)
  · intro d' hd'
    have hroot : s.catalog.content? d'.rootId = some (.root d'.name) :=
      Catalog.content?_id hd' 0
    have hfile : d'.rootId.file = file := Catalog.document?_eq_some hd'
    rw [← Catalog.nameFindings_eq_nil_iff (Catalog.siblings?_root (hfile ▸ hd') hroot),
      ← evaluate_contentFindings_names hroot (.inl rfl)]
    exact hcontent d'.rootId hfile
  · intro n name id hfile hn
    rw [← Catalog.nameFindings_eq_nil_iff (Catalog.siblings?_entity hn),
      ← evaluate_contentFindings_names hn (.inr (.inl rfl))]
    exact hcontent n hfile
  · intro n name hfile hn
    rw [← Catalog.nameFindings_eq_nil_iff (Catalog.siblings?_enumeration hn),
      ← evaluate_contentFindings_names hn (.inr (.inr rfl))]
    exact hcontent n hfile
  · intro n m hfile hn
    exact ((contentFindings_member_eq_nil_iff hlinked h hfile hn).1 (hcontent n hfile)).1
  · intro member m value hg hm
    cases hg with
    | default hfile hm' hv =>
      have hfits := (contentFindings_member_eq_nil_iff hlinked h hfile hm).1 (hcontent _ hfile)
      exact hfits.2 value hv
    | assigned hfile ha ht hv =>
      have hfits := (contentFindings_assignment_eq_nil_iff hlinked h hfile ha).1 (hcontent _ hfile)
      exact hfits member m value ht hm hv
  · intro n name r entity hfile hn hentity
    exact (contentFindings_instantiation_eq_nil_iff h hn).1 (hcontent n hfile) entity hentity

/-- Nothing is found in a well-formed document. -/
theorem check_eq_nil_of_wellFormed (h : s.catalog.Loaded) {file : FileId} {d : Document}
    (hd : s.catalog.document? file = some d) (hwf : s.WellFormed file) :
    s.evaluate (s.check file) = [] := by
  have hlinked : ∀ n : NodeId, n.file = file → (s.resolutionAt n).isFault = false :=
    fun n hfile ↦ Resolution.isFault_eq_false_iff.2 (hwf.linked n hfile)
  refine (check_eq_nil_iff_forall h hd).2 fun n hfile ↦
    ⟨referenceFindings_eq_nil (hlinked n hfile), ?_⟩
  cases hn : s.catalog.content? n with
  | none => exact contentFindings_eq_nil (by simp [Catalog.kind?, hn])
  | some content =>
    cases content with
    | root name =>
      rw [evaluate_contentFindings_names hn (.inl rfl),
        Catalog.nameFindings_eq_nil_iff (Catalog.siblings?_root (hfile ▸ hd) hn)]
      exact hwf.classifiers d hd
    | entity name id =>
      rw [evaluate_contentFindings_names hn (.inr (.inl rfl)),
        Catalog.nameFindings_eq_nil_iff (Catalog.siblings?_entity hn)]
      exact hwf.members n name id hfile hn
    | enumeration name =>
      rw [evaluate_contentFindings_names hn (.inr (.inr rfl)),
        Catalog.nameFindings_eq_nil_iff (Catalog.siblings?_enumeration hn)]
      exact hwf.literals n name hfile hn
    | member m =>
      refine (contentFindings_member_eq_nil_iff hlinked h hfile hn).2
        ⟨hwf.bounds n m hfile hn, fun value hv ↦ ?_⟩
      exact hwf.values n m value (.default hfile hn hv) hn
    | instantiation name r =>
      refine (contentFindings_instantiation_eq_nil_iff h hn).2 fun entity hentity ↦ ?_
      exact hwf.instances n name r entity hfile hn hentity
    | assignment r =>
      refine (contentFindings_assignment_eq_nil_iff hlinked h hfile hn).2
        fun member m value hmember hm hv ↦ ?_
      exact hwf.values member m value (.assigned hfile hn hmember hv) hm
    | _ => exact contentFindings_eq_nil (by simp [Catalog.kind?, hn, Content.kind])

/-- **A check finds nothing exactly if the document is well-formed.** This holds under all settings
and whatever else is loaded. -/
theorem check_eq_nil_iff (s : Snapshot) (h : s.catalog.Loaded) {file : FileId} {d : Document}
    (hd : s.catalog.document? file = some d) :
    s.evaluate (s.check file) = [] ↔ s.WellFormed file :=
  ⟨wellFormed_of_check_eq_nil h hd, check_eq_nil_of_wellFormed h hd⟩

end Classes

/-- One document with an enumeration, an entity with a member of it, and an instance of the
entity. -/
def ofColors : Snapshot :=
  .ofDocuments [.drafting ⟨0⟩ "m"
    [.declare (.enumeration ⟨"Color", ["Red", "Green"]⟩),
      .declare (.entity ⟨"Car", some "car", [⟨"colors", .attribute, .enumeration "Color",
        ⟨some 1, some 2, true⟩, true, false, none⟩]⟩),
      .declare (.instantiation ⟨"i", "car",
        [⟨"colors", .array [.scalar (.literal "Green"), .scalar (.literal "Red")]⟩]⟩)]]

theorem loaded_ofColors : ofColors.catalog.Loaded :=
  .ofDrafting _ _ (by decide)

/-- That document is well-formed, since nothing is found in it. -/
theorem check_eq_nil_iff_ofColors :
    ofColors.catalog.Loaded ∧ (∃ d, ofColors.catalog.document? ⟨0⟩ = some d) ∧
      ofColors.evaluate (ofColors.check ⟨0⟩) = [] ∧ ofColors.WellFormed ⟨0⟩ := by
  have hcheck : ofColors.evaluate (ofColors.check ⟨0⟩) = [] := by decide
  exact ⟨loaded_ofColors, ⟨_, rfl⟩, hcheck,
    (check_eq_nil_iff ofColors loaded_ofColors rfl).1 hcheck⟩

end Snapshot

end Schemata
