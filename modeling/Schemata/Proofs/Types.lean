import Schemata.Proofs.Blocked

/-!
# Nodes without a type

Every node of a kind that has types at all (`Content.hasType`) has one, unless a reference fails it.
`Snapshot.TypeRestsOn` lists the references on which the type of a node rests: its own, the one in
the type of a member, and for an assignment both its own and the one in the type of its member.

A reference can fail a node in two ways. It may come to no single node, which is a finding. Or it is
a reference type that comes to a classifier which is not an entity (`Snapshot.Misdirected`). The
scope of a reference type holds every classifier of the file, but only entities are types of members
in this way, so the reference resolves and the type is missing. Of all sites this is the only one
whose scope is wider than what can be typed, and nothing is found there: a member of such a type
accepts every value in silence. `Snapshot.typeAt?_eq_none_iff` says that there are no other cases.
-/

namespace Schemata

section Classes

variable {classes : Text.IdentifierClasses}

namespace Catalog

/-- The scalars of a value: the elements of an array, and any other value itself. -/
def scalarsOf (c : Catalog) (value : NodeId) : List NodeId :=
  match c.content? value with
  | some .array => c.children value
  | _ => [value]

theorem Loaded.exists_scalar_of_mem_scalarsOf {c : Catalog} (h : c.Loaded) {v value : NodeId}
    {k : Kind} (hk : c.kind? value = some k) (hvalue : k.isValue = true)
    (hv : v ∈ c.scalarsOf value) : ∃ x, c.content? v = some (.value x) := by
  obtain ⟨content, hc, rfl⟩ := exists_content?_of_kind? hk
  rw [scalarsOf, hc] at hv
  cases content with
  | array => exact h.value_of_mem_children hc hv
  | value x => exact ⟨x, List.mem_singleton.1 hv ▸ hc⟩
  | _ => cases hvalue

end Catalog

namespace Snapshot

variable {s : Snapshot} {n t : NodeId}

/-! ### The type of each kind of node -/

theorem evaluate_declaredType {member : NodeId} {w : MemberType Reference}
    (ht : s.catalog.memberType? member = some (t, w)) :
    s.evaluate (s.declaredType member) = s.typeAt? t := by
  rw [declaredType, (Catalog.memberType?_eq_some_iff.1 ht).1]
  rfl

/-- A member has the type of its type node. -/
theorem typeAt?_member (h : s.catalog.Loaded) {m : Member} {w : MemberType Reference}
    (hn : s.catalog.content? n = some (.member m))
    (ht : s.catalog.memberType? n = some (t, w)) : s.typeAt? n = s.typeAt? t := by
  rw [typeAt?_eq h, infer, hn]
  exact evaluate_declaredType ht

theorem evaluate_entityTypeAt (s : Snapshot) (n : NodeId) :
    s.evaluate (s.entityTypeAt n) =
      (s.targetAt? n).bind fun t ↦ if s.catalog.isEntity t then some (.entity t) else none := by
  rw [entityTypeAt, evaluate, Query.eval_bind, eval_target?]
  cases s.targetAt? n with
  | none => rfl
  | some t =>
    rw [Option.bind_some, Catalog.isEntity]
    dsimp only
    cases s.catalog.content? t with
    | none => rfl
    | some content => cases content <;> rfl

/-- A type that names an entity is that entity, if it comes to one. -/
theorem typeAt?_entityType (h : s.catalog.Loaded) {r : Reference}
    (hn : s.catalog.content? n = some (.type (.entity r))) :
    s.typeAt? n =
      (s.targetAt? n).bind fun t ↦ if s.catalog.isEntity t then some (.entity t) else none := by
  rw [typeAt?_eq h, infer, hn]
  exact s.evaluate_entityTypeAt n

/-- A reference that can only come to an entity has that entity as its type. -/
theorem evaluate_entityTypeAt_of_entity (hentity : ∀ t, s.targetAt? n = some t →
    ∃ name id, s.catalog.content? t = some (.entity name id)) :
    s.evaluate (s.entityTypeAt n) = (s.targetAt? n).map .entity := by
  rw [evaluate_entityTypeAt]
  cases ht : s.targetAt? n with
  | none => rfl
  | some t =>
    have hisEntity : s.catalog.isEntity t = true := Catalog.isEntity_iff.2 (hentity t ht)
    rw [Option.bind_some, if_pos hisEntity, Option.map_some]

theorem typeAt?_instantiation (h : s.catalog.Loaded) {name : String} {r : Reference}
    (hn : s.catalog.content? n = some (.instantiation name r)) :
    s.typeAt? n = (s.targetAt? n).map .entity := by
  rw [typeAt?_eq h, infer, hn]
  exact evaluate_entityTypeAt_of_entity fun t ht ↦ exists_entity_of_instantiation hn ht

theorem typeAt?_contained (h : s.catalog.Loaded) {r : Reference}
    (hn : s.catalog.content? n = some (.value (.contained r))) :
    s.typeAt? n = (s.targetAt? n).map .entity := by
  rw [typeAt?_eq h, infer, hn]
  exact evaluate_entityTypeAt_of_entity fun t ht ↦ exists_entity_of_contained hn ht

/-- A type that names an enumeration cannot come to anything else. -/
theorem typeAt?_enumerationType (h : s.catalog.Loaded) {r : Reference}
    (hn : s.catalog.content? n = some (.type (.enumeration r))) :
    s.typeAt? n = (s.targetAt? n).map .enumeration := by
  rw [typeAt?_eq h, infer, hn]
  show Query.eval _ (s.enumerationTypeAt n) = _
  rw [enumerationTypeAt, Query.eval_bind, eval_target?]
  cases ht : s.targetAt? n with
  | none => rfl
  | some t =>
    obtain ⟨name, hc⟩ := exists_enumeration_of_enumerationType hn ht
    simp only [hc]
    rfl

/-- A declared literal has its enumeration as its type. -/
theorem typeAt?_declaredLiteral (h : s.catalog.Loaded) {name : String}
    (hn : s.catalog.content? n = some (.literal name)) :
    s.typeAt? n = (s.catalog.parent? n).map .enumeration := by
  rw [typeAt?_eq h, infer, hn]
  rfl

/-- A literal has the enumeration of the literal to which it comes as its type. -/
theorem typeAt?_literal (h : s.catalog.Loaded) {r : Reference}
    (hn : s.catalog.content? n = some (.value (.literal r))) :
    s.typeAt? n =
      (s.targetAt? n).bind fun t ↦ (s.catalog.parent? t).map .enumeration := by
  rw [typeAt?_eq h, infer, hn]
  show Query.eval _ (literalTypeAt n) = _
  rw [literalTypeAt, Query.eval_bind, eval_target?]
  cases ht : s.targetAt? n with
  | none => rfl
  | some t =>
    obtain ⟨-, -, -, -, -, -, -, -, name, hc⟩ := exists_literal_of_literal h hn ht
    exact typeAt?_declaredLiteral h hc

/-- An assignment has the type of its member. -/
theorem typeAt?_assignment (h : s.catalog.Loaded) {r : Reference}
    (hn : s.catalog.content? n = some (.assignment r)) :
    s.typeAt? n = (s.targetAt? n).bind s.typeAt? := by
  rw [typeAt?_eq h, infer, hn, evaluate, Query.eval_bind, eval_target?]
  cases ht : s.targetAt? n with
  | none => rfl
  | some member =>
    obtain ⟨-, -, -, -, -, -, m, hc⟩ := exists_member_of_assignment h hn ht
    obtain ⟨type, w, hw, -⟩ := h.exists_memberType hc
    rw [Option.bind_some, typeAt?_member h hc hw]
    exact evaluate_declaredType hw

/-! ### The references on which a type rests -/

variable (s) in
/-- The references on which the type of a node rests. -/
inductive TypeRestsOn : NodeId → NodeId → Prop
  | own {n : NodeId} (hn : s.HasReference n) : TypeRestsOn n n
  | memberType {n t : NodeId} {w : MemberType Reference}
      (ht : s.catalog.memberType? n = some (t, w)) (hr : s.HasReference t) : TypeRestsOn n t
  | assignedType {n member t : NodeId} {r : Reference} {w : MemberType Reference}
      (hn : s.catalog.content? n = some (.assignment r)) (hm : s.targetAt? n = some member)
      (ht : s.catalog.memberType? member = some (t, w)) (hr : s.HasReference t) : TypeRestsOn n t

variable (s) in
/-- Whether a reference type comes to a classifier that is not an entity: an enumeration or an
instance. -/
def Misdirected (u : NodeId) : Prop :=
  ∃ r t, s.catalog.content? u = some (.type (.entity r)) ∧ s.targetAt? u = some t ∧
    ((∃ name, s.catalog.content? t = some (.enumeration name)) ∨
      ∃ name r', s.catalog.content? t = some (.instantiation name r'))

variable (s) in
/-- Whether a reference fails the types that rest on it. -/
def Fails (u : NodeId) : Prop := s.targetAt? u = none ∨ s.Misdirected u

theorem TypeRestsOn.hasReference {u : NodeId} (h : s.TypeRestsOn n u) : s.HasReference u := by
  cases h with
  | own hr => exact hr
  | memberType _ hr => exact hr
  | assignedType _ _ _ hr => exact hr

theorem Misdirected.hasReference (h : s.Misdirected n) : s.HasReference n := by
  obtain ⟨r, t, hc, -⟩ := h
  exact ⟨_, _, r, hc, rfl⟩

/-- A type that names an entity is misdirected if it comes to something else. -/
theorem misdirected_iff (h : s.catalog.Loaded) {r : Reference}
    (hn : s.catalog.content? n = some (.type (.entity r))) (ht : s.targetAt? n = some t) :
    s.Misdirected n ↔ s.catalog.isEntity t = false := by
  constructor
  · rintro ⟨r', t', -, ht', hc⟩
    obtain rfl : t = t' := Option.some.inj (ht.symm.trans ht')
    rcases hc with ⟨name, hc⟩ | ⟨name, r', hc⟩
    · rw [Catalog.isEntity, hc]
      rfl
    · rw [Catalog.isEntity, hc]
      rfl
  · intro hentity
    -- the scope holds classifiers only, and one that is no entity is an enumeration or an instance
    obtain ⟨k, hk, hclassifier⟩ := isClassifier_of_entityType h hn ht
    obtain ⟨content, hc, rfl⟩ := Catalog.exists_content?_of_kind? hk
    refine ⟨r, t, hn, ht, ?_⟩
    cases content with
    | enumeration name => exact .inl ⟨name, hc⟩
    | instantiation name r' => exact .inr ⟨name, r', hc⟩
    | entity name id =>
      rw [Catalog.isEntity, hc] at hentity
      cases hentity
    | _ => cases hclassifier

theorem not_misdirected {content : Content Reference} (hn : s.catalog.content? n = some content)
    (hne : ∀ r, content ≠ .type (.entity r)) : ¬ s.Misdirected n := by
  rintro ⟨r, t, hc, -⟩
  exact hne r (Option.some.inj (hn.symm.trans hc))

theorem not_hasReference {content : Content Reference} (hn : s.catalog.content? n = some content)
    (hr : content.reference? = none) : ¬ s.HasReference n := by
  rintro ⟨content', site, r, hc, hr'⟩
  obtain rfl : content = content' := Option.some.inj (hn.symm.trans hc)
  rw [hr] at hr'
  cases hr'

/-- The type of a member is missing exactly if its reference fails it. -/
theorem typeAt?_type_eq_none_iff (h : s.catalog.Loaded) {w : MemberType Reference}
    (hn : s.catalog.content? n = some (.type w)) :
    s.typeAt? n = none ↔ s.HasReference n ∧ s.Fails n := by
  cases w with
  | entity r =>
    have href : s.HasReference n := ⟨_, _, _, hn, rfl⟩
    rw [typeAt?_entityType h hn]
    cases ht : s.targetAt? n with
    | none => simp [Fails, ht, href]
    | some t =>
      rw [Option.bind_some, Fails, ht, misdirected_iff h hn ht]
      simp [href]
  | enumeration r =>
    have href : s.HasReference n := ⟨_, _, _, hn, rfl⟩
    have hdirect : ¬ s.Misdirected n := not_misdirected hn (by simp)
    rw [typeAt?_enumerationType h hn]
    simp [Fails, hdirect, href]
  | boolean | integer | float | string =>
    have href : ¬ s.HasReference n := not_hasReference hn rfl
    have htype : s.typeAt? n ≠ none := by
      rw [typeAt?_eq h, infer, hn]
      exact Option.some_ne_none _
    simp [htype, href]

/-- Only members and assignments have their types from elsewhere. -/
theorem typeRestsOn_iff_own {content : Content Reference} (hn : s.catalog.content? n = some content)
    (hk : content.kind ≠ .member ∧ content.kind ≠ .assignment) {u : NodeId} :
    s.TypeRestsOn n u ↔ u = n ∧ s.HasReference n := by
  constructor
  · intro hrests
    cases hrests with
    | own hr => exact ⟨rfl, hr⟩
    | memberType ht hr =>
      obtain ⟨m, hc⟩ := Catalog.exists_member_of_memberType? ht
      obtain rfl : content = .member m := Option.some.inj (hn.symm.trans hc)
      exact absurd rfl hk.1
    | assignedType hc hm ht hr =>
      rw [hn, Option.some.injEq] at hc
      rw [hc] at hk
      exact absurd rfl hk.2
  · rintro ⟨rfl, hr⟩
    exact .own hr

/-- The type of a member rests on the reference of its type node, if there is one. -/
theorem typeRestsOn_member_iff {m : Member} {w : MemberType Reference}
    (hn : s.catalog.content? n = some (.member m))
    (ht : s.catalog.memberType? n = some (t, w)) {u : NodeId} :
    s.TypeRestsOn n u ↔ u = t ∧ s.HasReference t := by
  constructor
  · intro hrests
    cases hrests with
    | own hr => exact absurd hr (not_hasReference hn rfl)
    | memberType ht' hr =>
      rw [ht, Option.some.injEq, Prod.mk.injEq] at ht'
      obtain ⟨rfl, -⟩ := ht'
      exact ⟨rfl, hr⟩
    | assignedType hc hm ht' hr => cases hn.symm.trans hc
  · rintro ⟨rfl, hr⟩
    exact .memberType ht hr

/-- That of an assignment rests on its own reference, and beyond it on the type of the member. -/
theorem typeRestsOn_assignment_iff {r : Reference} {u : NodeId}
    (hn : s.catalog.content? n = some (.assignment r)) :
    s.TypeRestsOn n u ↔ u = n ∨ ∃ member w, s.targetAt? n = some member ∧
      s.catalog.memberType? member = some (u, w) ∧ s.HasReference u := by
  constructor
  · intro hrests
    cases hrests with
    | own hr => exact .inl rfl
    | memberType ht hr =>
      obtain ⟨m, hc⟩ := Catalog.exists_member_of_memberType? ht
      cases hn.symm.trans hc
    | assignedType hc hm ht hr => exact .inr ⟨_, _, hm, ht, hr⟩
  · rintro (rfl | ⟨member, w, hm, ht, hr⟩)
    · exact .own ⟨_, _, _, hn, rfl⟩
    · exact .assignedType hn hm ht hr

/-- A node of a kind that has types has none exactly if a reference fails it. -/
theorem typeAt?_eq_none_iff_exists_fails (h : s.catalog.Loaded) {content : Content Reference}
    (hn : s.catalog.content? n = some content) (htype : content.hasType = true) :
    s.typeAt? n = none ↔ ∃ u, s.TypeRestsOn n u ∧ s.Fails u := by
  -- a node with a reference of its own that always comes to what has a type
  have hown (hk : content.kind ≠ .member ∧ content.kind ≠ .assignment)
      (hne : ∀ r, content ≠ .type (.entity r)) (hr : s.HasReference n)
      (heq : s.typeAt? n = none ↔ s.targetAt? n = none) :
      s.typeAt? n = none ↔ ∃ u, s.TypeRestsOn n u ∧ s.Fails u := by
    have hdirect : ¬ s.Misdirected n := not_misdirected hn hne
    simp [typeRestsOn_iff_own hn hk, hr, Fails, hdirect, heq]
  -- a node without a reference
  have hplain (hk : content.kind ≠ .member ∧ content.kind ≠ .assignment)
      (hr : content.reference? = none) (hsome : s.typeAt? n ≠ none) :
      s.typeAt? n = none ↔ ∃ u, s.TypeRestsOn n u ∧ s.Fails u := by
    simp [typeRestsOn_iff_own hn hk, not_hasReference hn hr, hsome]
  match content with
  | .entity name id =>
    exact hplain (by simp [Content.kind]) rfl (by simp [typeAt?_eq h, infer, hn, evaluate])
  | .enumeration name =>
    exact hplain (by simp [Content.kind]) rfl (by simp [typeAt?_eq h, infer, hn, evaluate])
  | .literal name =>
    obtain ⟨p, -, hp, -⟩ := h.exists_enumeration hn
    exact hplain (by simp [Content.kind]) rfl (by simp [typeAt?_declaredLiteral h hn, hp])
  | .type w =>
    rw [typeAt?_type_eq_none_iff h hn]
    simp [typeRestsOn_iff_own hn (by simp [Content.kind])]
  | .instantiation name r =>
    exact hown (by simp [Content.kind]) (by simp) ⟨_, _, _, hn, rfl⟩
      (by simp [typeAt?_instantiation h hn])
  | .value (.boolean b) =>
    exact hplain (by simp [Content.kind]) rfl (by simp [typeAt?_eq h, infer, hn, evaluate])
  | .value (.integer i) =>
    exact hplain (by simp [Content.kind]) rfl (by simp [typeAt?_eq h, infer, hn, evaluate])
  | .value (.float x) =>
    exact hplain (by simp [Content.kind]) rfl (by simp [typeAt?_eq h, infer, hn, evaluate])
  | .value (.string x) =>
    exact hplain (by simp [Content.kind]) rfl (by simp [typeAt?_eq h, infer, hn, evaluate])
  | .value (.literal r) =>
    refine hown (by simp [Content.kind]) (by simp) ⟨_, _, _, hn, rfl⟩ ?_
    rw [typeAt?_literal h hn]
    cases ht : s.targetAt? n with
    | none => simp
    | some l =>
      obtain ⟨-, -, -, enumeration, -, -, -, hp, -⟩ := exists_literal_of_literal h hn ht
      simp [hp]
  | .value (.contained r) =>
    exact hown (by simp [Content.kind]) (by simp) ⟨_, _, _, hn, rfl⟩
      (by simp [typeAt?_contained h hn])
  | .member m =>
    obtain ⟨t, w, hw, -⟩ := h.exists_memberType hn
    rw [typeAt?_member h hn hw, typeAt?_type_eq_none_iff h (Catalog.content?_of_memberType? hw)]
    simp [typeRestsOn_member_iff hn hw, and_assoc]
  | .assignment r =>
    have hdirect : ¬ s.Misdirected n := not_misdirected hn (by simp)
    rw [typeAt?_assignment h hn]
    cases ht : s.targetAt? n with
    | none => simp [typeRestsOn_assignment_iff hn, Fails, ht]
    | some member =>
      obtain ⟨-, -, -, -, -, -, m, hc⟩ := exists_member_of_assignment h hn ht
      obtain ⟨t, w, hw, -⟩ := h.exists_memberType hc
      rw [Option.bind_some, typeAt?_member h hc hw,
        typeAt?_type_eq_none_iff h (Catalog.content?_of_memberType? hw)]
      simp [typeRestsOn_assignment_iff hn, ht, hw, Fails, hdirect]

/-! ### Values that are not compared -/

variable (s) in
/-- Whether a value is not compared with what its member declares, or one of its elements is not. -/
def Skips (member value : NodeId) : Prop :=
  s.evaluate (s.declaredType member) = none ∨
    ∃ v ∈ s.catalog.scalarsOf value, s.typeAt? v = none

/-- If every reference comes to one node, only misdirected reference types lack a type. -/
theorem typeAt?_eq_none_iff_of_found (h : s.catalog.Loaded)
    (hfound : ∀ u, s.HasReference u → ∃ t, s.targetAt? u = some t) {content : Content Reference}
    (hn : s.catalog.content? n = some content) (htype : content.hasType = true) :
    s.typeAt? n = none ↔ ∃ u, s.TypeRestsOn n u ∧ s.Misdirected u := by
  rw [typeAt?_eq_none_iff_exists_fails h hn htype]
  refine exists_congr fun u ↦ and_congr_right fun hrests ↦ ?_
  refine ⟨fun hfails ↦ hfails.resolve_left fun hnone ↦ ?_, .inr⟩
  obtain ⟨t, ht⟩ := hfound u hrests.hasReference
  rw [hnone] at ht
  cases ht

/-- Then every scalar has a type, so that a value is compared unless its member has none. -/
theorem skips_iff_of_found (h : s.catalog.Loaded)
    (hfound : ∀ u, s.HasReference u → ∃ t, s.targetAt? u = some t) {member value type : NodeId}
    {w : MemberType Reference} {k : Kind}
    (hw : s.catalog.memberType? member = some (type, w)) (hk : s.catalog.kind? value = some k)
    (hvalue : k.isValue = true) : s.Skips member value ↔ s.Misdirected type := by
  -- only reference types are ever misdirected, so a scalar has a type as soon as it resolves
  have hscalar : ∀ v ∈ s.catalog.scalarsOf value, s.typeAt? v ≠ none := by
    intro v hv hnone
    obtain ⟨x, hx⟩ := h.exists_scalar_of_mem_scalarsOf hk hvalue hv
    rw [typeAt?_eq_none_iff_of_found h hfound hx rfl] at hnone
    obtain ⟨u, hrests, hmisdirected⟩ := hnone
    obtain ⟨rfl, -⟩ := (typeRestsOn_iff_own hx (by simp [Content.kind])).1 hrests
    exact not_misdirected hx (by simp) hmisdirected
  have htype := Catalog.content?_of_memberType? hw
  have hdeclared : s.evaluate (s.declaredType member) = none ↔ s.Misdirected type := by
    rw [evaluate_declaredType hw, typeAt?_type_eq_none_iff h htype]
    constructor
    · rintro ⟨href, hnone | hmisdirected⟩
      · obtain ⟨t, ht⟩ := hfound type href
        rw [hnone] at ht
        cases ht
      · exact hmisdirected
    · intro hmisdirected
      exact ⟨hmisdirected.hasReference, .inr hmisdirected⟩
  rw [Skips, hdeclared]
  refine ⟨fun hskips ↦ hskips.resolve_right ?_, .inl⟩
  rintro ⟨v, hv, hnone⟩
  exact hscalar v hv hnone

/-- **A type is missing only where a reference fails it, and one way to fail is no finding.** A node
of a kind that has types has none exactly if its type rests on a reference that does not come to one
node, or on a reference type that comes to an enumeration or to an instance. So if no check finds
anything about a reference, what is left without a type rests on such a reference type, and a value
is not compared exactly if the type of its member is one. -/
theorem typeAt?_eq_none_iff (s : Snapshot) (h : s.catalog.Loaded) :
    (∀ n content, s.catalog.content? n = some content → content.hasType = true →
      (s.typeAt? n = none ↔ ∃ u, s.TypeRestsOn n u ∧
        ((∀ t, s.resolutionAt u ≠ .found t) ∨ s.Misdirected u))) ∧
    ((∀ findings ∈ s.evaluate s.checkAll, ∀ x ∈ findings.2, x.isLinking = false) →
      (∀ n content, s.catalog.content? n = some content → content.hasType = true →
        (s.typeAt? n = none ↔ ∃ u, s.TypeRestsOn n u ∧ s.Misdirected u)) ∧
      ∀ member type w value k, s.catalog.memberType? member = some (type, w) →
        s.catalog.kind? value = some k → k.isValue = true →
        (s.Skips member value ↔ s.Misdirected type)) := by
  constructor
  · intro n content hn htype
    rw [typeAt?_eq_none_iff_exists_fails h hn htype]
    refine exists_congr fun u ↦ and_congr_right fun _ ↦ or_congr_left ?_
    rw [Option.eq_none_iff_forall_ne_some]
    exact forall_congr' fun t ↦ not_congr targetAt?_eq_some_iff
  · intro hclean
    have hfound : ∀ u, s.HasReference u → ∃ t, s.targetAt? u = some t := fun u hu ↦
      exists_targetAt?_of_no_linking h hclean hu
    constructor
    · intro n content hn htype
      exact typeAt?_eq_none_iff_of_found h hfound hn htype
    · intro member type w value k hw hk hvalue
      exact skips_iff_of_found h hfound hw hk hvalue

end Snapshot

end Classes

namespace Snapshot

/-- One document with an enumeration and an entity whose member names the enumeration where an
entity belongs. Place 4 is the member, 5 its type and 6 its default, which is an integer. -/
def ofMisdirected : Snapshot :=
  .ofDocuments [.drafting ⟨0⟩ "m"
    [.declare (.enumeration ⟨"Color", ["Red"]⟩),
      .declare (.entity ⟨"E", none, [⟨"x", .attribute, .entity "Color", ⟨none, none, false⟩, false,
        false, some (.scalar (.integer 3))⟩]⟩)]]

theorem loaded_ofMisdirected : ofMisdirected.catalog.Loaded :=
  .ofDrafting _ _ (by decide)

theorem resolutionAt_ofMisdirected :
    ofMisdirected.resolutionAt ⟨⟨0⟩, 5⟩ = .found ⟨⟨0⟩, 1⟩ := by
  decide

theorem checkAll_ofMisdirected : ofMisdirected.evaluate ofMisdirected.checkAll = [(⟨0⟩, [])] := by
  decide

/-- There the default is an integer in a member of no type, and nothing is found. -/
theorem typeAt?_eq_none_iff_ofMisdirected :
    ofMisdirected.catalog.Loaded ∧ ofMisdirected.evaluate ofMisdirected.checkAll = [(⟨0⟩, [])] ∧
      ofMisdirected.typeAt? ⟨⟨0⟩, 5⟩ = none ∧ ofMisdirected.Skips ⟨⟨0⟩, 4⟩ ⟨⟨0⟩, 6⟩ := by
  have hclean : ∀ findings ∈ ofMisdirected.evaluate ofMisdirected.checkAll,
      ∀ x ∈ findings.2, x.isLinking = false := by
    rw [checkAll_ofMisdirected]
    simp
  have htarget : ofMisdirected.targetAt? ⟨⟨0⟩, 5⟩ = some ⟨⟨0⟩, 1⟩ :=
    targetAt?_eq_some_iff.2 resolutionAt_ofMisdirected
  have hmisdirected : ofMisdirected.Misdirected ⟨⟨0⟩, 5⟩ := ⟨_, _, rfl, htarget, .inl ⟨_, rfl⟩⟩
  have hiff := typeAt?_eq_none_iff ofMisdirected loaded_ofMisdirected
  have htype := (hiff.1 ⟨⟨0⟩, 5⟩ _ rfl rfl).2 ⟨_, .own hmisdirected.hasReference, .inr hmisdirected⟩
  have hskips := ((hiff.2 hclean).2 ⟨⟨0⟩, 4⟩ ⟨⟨0⟩, 5⟩ _ ⟨⟨0⟩, 6⟩ .value rfl rfl rfl).2 hmisdirected
  exact ⟨loaded_ofMisdirected, checkAll_ofMisdirected, htype, hskips⟩

/-- So a node can be without a type although every reference behind it comes to one node. -/
theorem not_exists_unresolved_of_typeAt?_eq_none :
    ¬ ∀ s : Snapshot, s.catalog.Loaded → ∀ n content, s.catalog.content? n = some content →
      content.hasType = true → s.typeAt? n = none →
        ∃ u, s.TypeRestsOn n u ∧ ∀ t, s.resolutionAt u ≠ .found t := by
  intro hclaim
  have htype : ofMisdirected.typeAt? ⟨⟨0⟩, 5⟩ = none := by decide
  obtain ⟨u, hrests, hu⟩ := hclaim ofMisdirected loaded_ofMisdirected ⟨⟨0⟩, 5⟩ _ rfl rfl htype
  obtain ⟨rfl, -⟩ := (typeRestsOn_iff_own rfl (by decide)).1 hrests
  exact hu _ resolutionAt_ofMisdirected

end Snapshot

end Schemata
