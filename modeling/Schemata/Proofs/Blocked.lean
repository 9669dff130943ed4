import Schemata.Proofs.Findings

/-!
# Blocked references

A blocked reference is no finding, on the ground that the reference which blocks it is one. This
module shows that there is such a reference. A scope can be missing only for an imported item, an
assignment or a literal, and each of these rests on references of another site
(`Snapshot.DependsOn`). An item rests on its import and an assignment on its instance, neither of
which is ever blocked. A literal rests on the type of the member for which it is meant and, to know
that member, on the assignment that holds it. The type is never blocked, and the assignment is at
most blocked by its instance. So the walk back ends after two steps, at a reference that is found
faulty (`Snapshot.exists_root_of_blocked`), exactly once (`Snapshot.blocked_reported`).

The root is in the file of the blocked reference, with one exception: a literal that is assigned to
a member of another file may be blocked by the type of that member.
-/

namespace Schemata

namespace Snapshot

section Classes

variable {classes : Text.IdentifierClasses}

variable (s : Snapshot)

/-- Whether a node holds a reference. -/
def HasReference (n : NodeId) : Prop :=
  ∃ content site r, s.catalog.content? n = some content ∧
    content.reference? = some (site, (r : Reference))

/-- The references on which a reference rests: an imported item on its import, an assignment on its
instance, and a literal on the assignment that holds it, on the instance of that, and on the
enumeration type of the member for which it is meant. -/
inductive DependsOn : NodeId → NodeId → Prop
  | importItem {n p : NodeId} {r : Reference} {rename : Option String}
      (hn : s.catalog.content? n = some (.importItem r rename))
      (hp : s.catalog.parent? n = some p) : DependsOn n p
  | assignment {n p : NodeId} {r : Reference} (hn : s.catalog.content? n = some (.assignment r))
      (hp : s.catalog.parent? n = some p) : DependsOn n p
  | literalAssignment {n a : NodeId} {r r' : Reference}
      (hn : s.catalog.content? n = some (.value (.literal r)))
      (ho : s.catalog.valueOwner? n = some a)
      (ha : s.catalog.content? a = some (.assignment r')) : DependsOn n a
  | literalInstance {n a p : NodeId} {r r' : Reference}
      (hn : s.catalog.content? n = some (.value (.literal r)))
      (ho : s.catalog.valueOwner? n = some a)
      (ha : s.catalog.content? a = some (.assignment r'))
      (hp : s.catalog.parent? a = some p) : DependsOn n p
  | literalType {n member type : NodeId} {r r' : Reference}
      (hn : s.catalog.content? n = some (.value (.literal r)))
      (hm : s.memberAt? n = some member)
      (ht : s.catalog.memberType? member = some (type, .enumeration r')) : DependsOn n type

/-- Whether a node is a literal that an instance assigns to a member of another file. -/
def MeantAbroad (n : NodeId) : Prop :=
  ∃ r a r' member, s.catalog.content? n = some (.value (.literal r)) ∧
    s.catalog.valueOwner? n = some a ∧ s.catalog.content? a = some (.assignment r') ∧
    s.targetAt? a = some member ∧ member.file ≠ n.file

/-- A reference that a blocked one rests on, and that is faulty itself. -/
structure Root (n u : NodeId) : Prop where
  dependsOn : s.DependsOn n u
  isFault : (s.resolutionAt u).isFault = true
  file_eq_or : u.file = n.file ∨ s.MeantAbroad n

variable {s} {n u : NodeId}

/-! ### References that are never blocked -/

theorem HasReference.of_isFault (h : (s.resolutionAt n).isFault = true) : s.HasReference n := by
  cases hr : (s.catalog.content? n).bind (·.reference?) with
  | none =>
    rw [resolutionAt_of_no_reference hr] at h
    cases h
  | some x =>
    obtain ⟨content, hc, hr⟩ := Option.bind_eq_some_iff.1 hr
    exact ⟨content, x.1, x.2, hc, hr⟩

/-- A reference with a scope is faulty if it comes to no single node. -/
theorem isFault_of_candidatesAt (h : s.catalog.Loaded) {content : Content Reference} {site : Site}
    {r : Reference} {scope : Scope} (hn : s.catalog.content? n = some content)
    (hr : content.reference? = some (site, r)) (hs : s.candidatesAt n = some scope)
    (ht : s.targetAt? n = none) : (s.resolutionAt n).isFault = true := by
  by_contra hfault
  rcases Resolution.found_or_blocked (by simpa using hfault) with ⟨t, hfound⟩ | hblocked
  · rw [targetAt?_eq_some_iff.2 hfound] at ht
    cases ht
  · have hnone : s.candidatesAt n = none := (resolutionAt_eq_blocked_iff h hn hr).1 hblocked
    rw [hs] at hnone
    cases hnone

theorem isFault_of_importClause (h : s.catalog.Loaded) {r : Reference}
    (hn : s.catalog.content? n = some (.importClause r)) (ht : s.targetAt? n = none) :
    (s.resolutionAt n).isFault = true := by
  obtain ⟨d, hd⟩ := Catalog.exists_document_of_content? hn
  have hs := candidatesAt_importClause hn
  rw [hd, Option.map_some] at hs
  exact isFault_of_candidatesAt h hn rfl hs ht

/-! ### The roots of blocked references -/

theorem exists_root_of_importItem (h : s.catalog.Loaded) {r : Reference} {rename : Option String}
    (hn : s.catalog.content? n = some (.importItem r rename)) (hs : s.candidatesAt n = none) :
    ∃ u, s.Root n u := by
  obtain ⟨p, r', hp, hc⟩ := h.exists_importClause hn
  rw [candidatesAt_importItem hn hp] at hs
  cases ht : s.targetAt? p with
  | none =>
    exact ⟨p, .importItem hn hp, isFault_of_importClause h hc ht, .inl (Catalog.file_of_parent? hp)⟩
  | some source =>
    obtain ⟨d, hd⟩ := exists_document_of_importClause h hc ht
    rw [ht, Option.bind_some, hd] at hs
    cases hs

/-- A blocked assignment belongs to an instance of no known entity. -/
theorem exists_instance_of_assignment (h : s.catalog.Loaded) {r : Reference}
    (hn : s.catalog.content? n = some (.assignment r)) (hs : s.candidatesAt n = none) :
    ∃ p, s.catalog.parent? n = some p ∧ (s.resolutionAt p).isFault = true := by
  obtain ⟨p, name, r', hp, hc⟩ := h.exists_instantiation hn
  rw [candidatesAt_assignment hn hp] at hs
  cases ht : s.targetAt? p with
  | none =>
    exact ⟨p, hp, isFault_of_candidatesAt h hc rfl (candidatesAt_instantiation hc) ht⟩
  | some entity =>
    obtain ⟨entityName, id, hce⟩ := exists_entity_of_instantiation hc ht
    rw [ht, Option.bind_some, hce] at hs
    cases hs

/-- A literal that is meant for a known member is blocked by the type of the member. -/
theorem exists_type_of_literal (h : s.catalog.Loaded) {r : Reference} {m : Member}
    {member : NodeId} (hn : s.catalog.content? n = some (.value (.literal r)))
    (hm : s.memberAt? n = some member) (hc : s.catalog.content? member = some (.member m))
    (hs : s.candidatesAt n = none) :
    ∃ type r', s.catalog.memberType? member = some (type, .enumeration r') ∧
      (s.resolutionAt type).isFault = true ∧ type.file = member.file := by
  obtain ⟨type, w, hw, hparent⟩ := h.exists_memberType hc
  have htype := Catalog.content?_of_memberType? hw
  by_cases henum : ∃ r', w = .enumeration r'
  · obtain ⟨r', rfl⟩ := henum
    rw [candidatesAt_literal_of_enumeration hn hm hc hw] at hs
    cases ht : s.targetAt? type with
    | none =>
      have hfault := isFault_of_candidatesAt h htype rfl (candidatesAt_enumerationType htype) ht
      exact ⟨type, r', hw, hfault, (Catalog.file_of_parent? hparent).symm⟩
    | some enumeration =>
      obtain ⟨name, hce⟩ := exists_enumeration_of_enumerationType htype ht
      rw [ht, Option.bind_some, hce] at hs
      cases hs
  · -- a member of another type gives its literals an empty scope, which is a scope
    rw [candidatesAt_literal_of_other hn hm hc hw fun r' hr' ↦ henum ⟨r', hr'⟩] at hs
    cases hs

theorem exists_root_of_literal (h : s.catalog.Loaded) {r : Reference}
    (hn : s.catalog.content? n = some (.value (.literal r))) (hs : s.candidatesAt n = none) :
    ∃ u, s.Root n u := by
  obtain ⟨o, ho, hfile, ⟨m, hc⟩ | ⟨r', hc⟩⟩ :=
    h.exists_valueOwner (Catalog.kind?_of_content? hn) rfl
  · -- the literal belongs to the default of a member
    have hm : s.memberAt? n = some o := memberAt?_of_default ho hc
    obtain ⟨type, r', hw, hfault, htype⟩ := exists_type_of_literal h hn hm hc hs
    exact ⟨type, .literalType hn hm hw, hfault, .inl (htype.trans hfile)⟩
  · cases ht : s.targetAt? o with
    | some member =>
      have hm : s.memberAt? n = some member := by rw [memberAt?_of_assigned ho hc, ht]
      obtain ⟨-, -, -, -, -, -, m, hmember⟩ := exists_member_of_assignment h hc ht
      obtain ⟨type, r'', hw, hfault, htype⟩ := exists_type_of_literal h hn hm hmember hs
      refine ⟨type, .literalType hn hm hw, hfault, ?_⟩
      by_cases hnear : member.file = n.file
      · exact .inl (htype.trans hnear)
      · exact .inr ⟨r, o, r', member, hn, ho, hc, ht, hnear⟩
    | none =>
      cases hscope : s.candidatesAt o with
      | some scope =>
        exact ⟨o, .literalAssignment hn ho hc, isFault_of_candidatesAt h hc rfl hscope ht,
          .inl hfile⟩
      | none =>
        obtain ⟨p, hp, hfault⟩ := exists_instance_of_assignment h hc hscope
        exact ⟨p, .literalInstance hn ho hc hp, hfault,
          .inl ((Catalog.file_of_parent? hp).trans hfile)⟩

/-- Behind a blocked reference there is a faulty one. -/
theorem exists_root_of_blocked (h : s.catalog.Loaded) (hn : s.HasReference n)
    (hblocked : s.resolutionAt n = .blocked) : ∃ u, s.Root n u := by
  obtain ⟨content, site, r, hc, hr⟩ := hn
  have hs : s.candidatesAt n = none := (resolutionAt_eq_blocked_iff h hc hr).1 hblocked
  match content, hr with
  | .importClause r, _ =>
    obtain ⟨d, hd⟩ := Catalog.exists_document_of_content? hc
    rw [candidatesAt_importClause hc, hd] at hs
    cases hs
  | .importItem r rename, _ => exact exists_root_of_importItem h hc hs
  | .type (.entity r), _ =>
    rw [candidatesAt_entityType hc] at hs
    cases hs
  | .type (.enumeration r), _ =>
    rw [candidatesAt_enumerationType hc] at hs
    cases hs
  | .instantiation name r, _ =>
    rw [candidatesAt_instantiation hc] at hs
    cases hs
  | .assignment r, _ =>
    obtain ⟨p, hp, hfault⟩ := exists_instance_of_assignment h hc hs
    exact ⟨p, .assignment hc hp, hfault, .inl (Catalog.file_of_parent? hp)⟩
  | .value (.literal r), _ => exact exists_root_of_literal h hc hs
  | .value (.contained r), _ =>
    rw [candidatesAt_contained hc] at hs
    cases hs

/-! ### Nothing is lost -/

/-- If no finding is about a reference, no reference is faulty. -/
theorem isFault_of_no_linking (h : s.catalog.Loaded)
    (hclean : ∀ findings ∈ s.evaluate s.checkAll, ∀ x ∈ findings.2, x.isLinking = false)
    (u : NodeId) : (s.resolutionAt u).isFault = false := by
  by_contra hfault
  have hfault : (s.resolutionAt u).isFault = true := by simpa using hfault
  obtain ⟨content, site, r, hc, -⟩ := HasReference.of_isFault hfault
  obtain ⟨d, hd⟩ := Catalog.exists_document_of_content? hc
  have hfile : u.file ∈ s.catalog.files :=
    List.mem_map.2 ⟨d, List.mem_of_find?_eq_some hd, Catalog.document?_eq_some hd⟩
  have hcount := countP_isLinking_check h hfault
  have hmem : (u.file, s.evaluate (s.check u.file)) ∈ s.evaluate s.checkAll := by
    rw [evaluate_checkAll]
    exact List.mem_map_of_mem hfile
  have hnone : (s.evaluate (s.check u.file)).countP (fun x ↦ x.isLinking && x.node == u) = 0 := by
    refine List.countP_eq_zero.2 fun x hx ↦ ?_
    simp [hclean _ hmem x hx]
  rw [hnone] at hcount
  cases hcount

/-- If no finding is about a reference, every reference comes to one node. -/
theorem exists_targetAt?_of_no_linking (h : s.catalog.Loaded)
    (hclean : ∀ findings ∈ s.evaluate s.checkAll, ∀ x ∈ findings.2, x.isLinking = false)
    (hn : s.HasReference n) : ∃ t, s.targetAt? n = some t := by
  have hfault : (s.resolutionAt n).isFault = false := isFault_of_no_linking h hclean n
  rcases Resolution.found_or_blocked hfault with ⟨t, hfound⟩ | hblocked
  · exact ⟨t, targetAt?_eq_some_iff.2 hfound⟩
  · -- a root would be faulty, and no reference is
    obtain ⟨u, hroot⟩ := exists_root_of_blocked h hn hblocked
    have hroot' : (s.resolutionAt u).isFault = false := isFault_of_no_linking h hclean u
    rw [hroot.isFault] at hroot'
    cases hroot'

/-- **Blocked references are silent, but never without cause.** A reference that is blocked rests on
one that comes to no node or to several, and the check of its file finds that one exactly once. Only
for a literal that is assigned to a member of another file can this be another file. So if no check
finds anything about a reference, every reference comes to one node. -/
theorem blocked_reported (s : Snapshot) (h : s.catalog.Loaded) :
    (∀ n, s.HasReference n → s.resolutionAt n = .blocked →
      ∃ u, s.DependsOn n u ∧ s.HasReference u ∧
        (s.resolutionAt u = .notFound ∨ ∃ targets, s.resolutionAt u = .ambiguous targets) ∧
        (s.evaluate (s.check u.file)).countP (fun x ↦ x.isLinking && x.node == u) = 1 ∧
        (u.file = n.file ∨ s.MeantAbroad n)) ∧
    ((∀ findings ∈ s.evaluate s.checkAll, ∀ x ∈ findings.2, x.isLinking = false) →
      ∀ n, s.HasReference n → ∃ t, s.resolutionAt n = .found t) := by
  constructor
  · intro n hn hblocked
    obtain ⟨u, hroot⟩ := exists_root_of_blocked h hn hblocked
    have hu : s.HasReference u := .of_isFault hroot.isFault
    have hcount := countP_isLinking_check h hroot.isFault
    exact ⟨u, hroot.dependsOn, hu, Resolution.isFault_iff.1 hroot.isFault, hcount,
      hroot.file_eq_or⟩
  · intro hclean n hn
    obtain ⟨t, ht⟩ := exists_targetAt?_of_no_linking h hclean hn
    exact ⟨t, targetAt?_eq_some_iff.1 ht⟩

end Classes

/-- One document with an instance of an entity that is declared nowhere. Places 2 and 3 are an
assignment of the instance and the literal that it assigns. -/
def ofUnknownEntity : Snapshot :=
  .ofDocuments [.drafting ⟨0⟩ "m"
    [.declare (.instantiation ⟨"i", "E", [⟨"x", .scalar (.literal "A")⟩]⟩)]]

theorem loaded_ofUnknownEntity : ofUnknownEntity.catalog.Loaded :=
  .ofDrafting _ _ (by decide)

/-- There the literal is blocked by the instance, two references away. -/
theorem blocked_reported_ofUnknownEntity :
    ofUnknownEntity.catalog.Loaded ∧ ofUnknownEntity.HasReference ⟨⟨0⟩, 3⟩ ∧
      ofUnknownEntity.resolutionAt ⟨⟨0⟩, 3⟩ = .blocked ∧
      ∃ u, ofUnknownEntity.DependsOn ⟨⟨0⟩, 3⟩ u ∧
        (ofUnknownEntity.evaluate (ofUnknownEntity.check u.file)).countP
          (fun x ↦ x.isLinking && x.node == u) = 1 := by
  have hn : ofUnknownEntity.HasReference ⟨⟨0⟩, 3⟩ := ⟨_, _, _, rfl, rfl⟩
  have hblocked : ofUnknownEntity.resolutionAt ⟨⟨0⟩, 3⟩ = .blocked := by decide
  obtain ⟨u, hu, -, -, hcount, -⟩ :=
    (blocked_reported ofUnknownEntity loaded_ofUnknownEntity).1 _ hn hblocked
  exact ⟨loaded_ofUnknownEntity, hn, hblocked, u, hu, hcount⟩

end Snapshot

end Schemata
