import Schemata.Proofs.DocumentNames
import Schemata.Proofs.Ranks

/-!
# What references come to

The plain answers of a snapshot, read site by site. For each kind of site there is one lemma that
says which scope it sees, and one that says what its target is: an entity for an instance and for a
contained value, an enumeration for an enumeration type, a member of the entity of the instance for
an assignment, a literal of the enumeration of the member for a literal. A reference type is the
exception. It sees every classifier, so its target is a classifier and need not be an entity.
-/

namespace Schemata

variable {classes : Text.IdentifierClasses}

/-! ### Named nodes of a catalog -/

namespace Catalog

variable {c : Catalog} {n p : NodeId}

/-- A node is called as its content says. -/
theorem name?_eq_bind (c : Catalog) (n : NodeId) : c.name? n = (c.content? n).bind (·.name?) := by
  rw [name?, content?]
  cases c.node? n <;> rfl

theorem member?_eq_some_iff {m : Member} :
    c.member? n = some m ↔ c.content? n = some (.member m) := by
  rw [member?]
  cases c.content? n with
  | none => simp
  | some content => cases content <;> simp

theorem isEntity_iff : c.isEntity n = true ↔ ∃ name id, c.content? n = some (.entity name id) := by
  rw [isEntity]
  cases c.content? n with
  | none => simp
  | some content => cases content <;> simp [Content.isEntity]

theorem isEnumeration_iff :
    c.isEnumeration n = true ↔ ∃ name, c.content? n = some (.enumeration name) := by
  rw [isEnumeration]
  cases c.content? n with
  | none => simp
  | some content => cases content <;> simp [Content.isEnumeration]

theorem exists_entity_of_externalId? {id : String} (h : c.externalId? n = some id) :
    ∃ name, c.content? n = some (.entity name (some id)) := by
  rw [externalId?] at h
  split at h
  · rename_i name id' hc
    rw [h] at hc
    exact ⟨name, hc⟩
  · cases h

namespace Loaded

/-- What a document declares is a node. -/
theorem exists_content?_of_mem_classifiers (h : c.Loaded) {d : Document}
    (hd : c.document? n.file = some d) (hn : n.index ∈ d.classifiers) :
    ∃ content, c.content? n = some content := by
  obtain ⟨k, hk, -⟩ := (h.tree hd).kind_classifiers n.index hn
  rw [← kind?_eq hd] at hk
  obtain ⟨content, hc, -⟩ := exists_content?_of_kind? hk
  exact ⟨content, hc⟩

/-- What a document names are its classifiers. -/
theorem isClassifier_of_mem_namedClassifiers (h : c.Loaded) {file : FileId} {d : Document}
    {name : String} (hd : c.document? file = some d) (hn : (name, n) ∈ d.namedClassifiers) :
    ∃ k, c.kind? n = some k ∧ k.isClassifier = true := by
  obtain ⟨i, hi, heq⟩ := List.mem_filterMap.1 hn
  obtain ⟨name', -, heq⟩ := Option.map_eq_some_iff.1 heq
  rw [Prod.mk.injEq] at heq
  obtain ⟨-, rfl⟩ := heq
  obtain ⟨k, hk, hclassifier⟩ := (h.tree hd).kind_classifiers i hi
  have hfile : c.document? (d.id i).file = some d := by
    show c.document? d.file = some d
    rw [document?_eq_some hd, hd]
  exact ⟨k, by rw [kind?_eq hfile]; exact hk, hclassifier⟩

end Loaded

end Catalog

namespace Snapshot

variable (s : Snapshot)

/-! ### Plain answers -/

/-- What the reference at a node comes to. -/
def resolutionAt (n : NodeId) : Resolution := s.answer (.resolution n)

/-- The node that the reference at a node comes to, if it comes to one. -/
def targetAt? (n : NodeId) : Option NodeId := (s.resolutionAt n).target?

/-- The type of a node. -/
def typeAt? (n : NodeId) : Option DataType := s.answer (.dataType n)

/-- The classifiers that can be named in a file. -/
def scopeIn (file : FileId) : Scope := s.answer (.classifiers file)

/-- The names that can be used at the reference of a node. -/
def candidatesAt (n : NodeId) : Option Scope := s.evaluate (s.candidates n)

/-- The member for which a value is meant. -/
def memberAt? (value : NodeId) : Option NodeId := s.evaluate (s.memberOfValue? value)

@[simp]
theorem eval_resolution (n : NodeId) :
    (Inquiry.resolution n).eval s.answer = s.resolutionAt n :=
  rfl

@[simp]
theorem eval_target? (n : NodeId) : (Inquiry.target? n).eval s.answer = s.targetAt? n :=
  rfl

@[simp]
theorem eval_dataType (n : NodeId) : (Inquiry.dataType n).eval s.answer = s.typeAt? n :=
  rfl

@[simp]
theorem eval_classifiers (file : FileId) :
    (Inquiry.classifiers file).eval s.answer = s.scopeIn file :=
  rfl

variable {s} {n t : NodeId}

/-- The type of a node is inferred with the plain answers. -/
theorem typeAt?_eq (h : s.catalog.Loaded) (n : NodeId) : s.typeAt? n = s.evaluate (s.infer n) :=
  answer_eq h (.dataType n)

theorem targetAt?_eq_some_iff : s.targetAt? n = some t ↔ s.resolutionAt n = .found t :=
  Resolution.target?_eq_some_iff

/-- A reference comes to what its text stands for in its scope, and is blocked without a scope. -/
theorem resolutionAt_of_reference (h : s.catalog.Loaded) {content : Content Reference} {site : Site}
    {r : Reference} (hn : s.catalog.content? n = some content)
    (hr : content.reference? = some (site, r)) :
    s.resolutionAt n = match s.candidatesAt n with
      | none => .blocked
      | some scope => scope.lookup r.text := by
  rw [resolutionAt, answer_eq h]
  show (s.resolve n).eval s.answer = _
  simp only [resolve, hn, hr, Option.bind_some, candidatesAt, evaluate, Query.eval_bind]
  cases (s.candidates n).eval s.answer <;> rfl

/-- Where there is no reference, nothing is looked up. -/
theorem resolutionAt_of_no_reference
    (hn : (s.catalog.content? n).bind (·.reference?) = none) : s.resolutionAt n = .blocked := by
  rw [resolutionAt, answer, depth, Rules.answerWithin]
  show (s.resolve n).eval _ = _
  simp only [resolve, hn]
  rfl

/-- A reference is blocked exactly if it has no scope. -/
theorem resolutionAt_eq_blocked_iff (h : s.catalog.Loaded) {content : Content Reference}
    {site : Site} {r : Reference} (hn : s.catalog.content? n = some content)
    (hr : content.reference? = some (site, r)) :
    s.resolutionAt n = .blocked ↔ s.candidatesAt n = none := by
  rw [resolutionAt_of_reference h hn hr]
  cases s.candidatesAt n with
  | none => simp
  | some scope => simp [scope.lookup_ne_blocked]

/-- What a reference comes to is named in its scope. -/
theorem exists_scope_of_found (h : s.catalog.Loaded) {content : Content Reference} {site : Site}
    {r : Reference} (hn : s.catalog.content? n = some content)
    (hr : content.reference? = some (site, r)) (ht : s.resolutionAt n = .found t) :
    ∃ scope, s.candidatesAt n = some scope ∧ scope.lookup r.text = .found t := by
  rw [resolutionAt_of_reference h hn hr] at ht
  cases hs : s.candidatesAt n with
  | none =>
    rw [hs] at ht
    cases ht
  | some scope => exact ⟨scope, rfl, by rw [hs] at ht; exact ht⟩

/-! ### The scope of each site -/

theorem candidatesAt_importClause {r : Reference}
    (hn : s.catalog.content? n = some (.importClause r)) :
    s.candidatesAt n =
      (s.catalog.document? n.file).map fun d ↦ s.catalog.documentScope d.name := by
  simp [candidatesAt, evaluate, candidates, hn, Content.reference?]

/-- The scope of an import rests on no answer, so neither does what the import comes to. -/
theorem answerWithin_importClause {d : Document} {r : Reference} (depth : Nat)
    (hd : s.catalog.document? n.file = some d)
    (hn : s.catalog.content? n = some (.importClause r)) :
    s.rules.answerWithin (depth + 1) (.resolution n) =
      (s.catalog.documentScope d.name).lookup r.text := by
  show (s.resolve n).eval _ = _
  simp [resolve, candidates, hn, hd, Content.reference?]

/-- An imported item is looked for in the document that its import comes to. -/
theorem candidatesAt_importItem {p : NodeId} {r : Reference} {rename : Option String}
    (hn : s.catalog.content? n = some (.importItem r rename)) (hp : s.catalog.parent? n = some p) :
    s.candidatesAt n = (s.targetAt? p).bind fun source ↦
      (s.catalog.document? source.file).map fun d ↦ .ofDeclared d.namedClassifiers := by
  simp only [candidatesAt, evaluate, candidates, hn, Content.reference?, Option.bind_some,
    exportScope?, hp, Query.eval_bind, eval_target?]
  cases s.targetAt? p <;> rfl

theorem candidatesAt_entityType {r : Reference}
    (hn : s.catalog.content? n = some (.type (.entity r))) :
    s.candidatesAt n = some (s.scopeIn n.file) := by
  simp [candidatesAt, evaluate, candidates, hn, Content.reference?, MemberType.reference?]

theorem candidatesAt_enumerationType {r : Reference}
    (hn : s.catalog.content? n = some (.type (.enumeration r))) :
    s.candidatesAt n =
      some ((s.scopeIn n.file).filter fun e ↦ s.catalog.isEnumeration e.target) := by
  simp [candidatesAt, evaluate, candidates, hn, Content.reference?, MemberType.reference?]

theorem candidatesAt_contained {r : Reference}
    (hn : s.catalog.content? n = some (.value (.contained r))) :
    s.candidatesAt n = some ((s.scopeIn n.file).filter fun e ↦ s.catalog.isEntity e.target) := by
  simp [candidatesAt, evaluate, candidates, hn, Content.reference?, Scalar.reference?]

theorem candidatesAt_instantiation {name : String} {r : Reference}
    (hn : s.catalog.content? n = some (.instantiation name r)) :
    s.candidatesAt n = some ((s.scopeIn n.file).byExternalId s.catalog) := by
  simp [candidatesAt, evaluate, candidates, hn, Content.reference?]

/-- An assigned member is looked for in the entity that the instance comes to. -/
theorem candidatesAt_assignment {p : NodeId} {r : Reference}
    (hn : s.catalog.content? n = some (.assignment r)) (hp : s.catalog.parent? n = some p) :
    s.candidatesAt n = (s.targetAt? p).bind fun entity ↦
      match s.catalog.content? entity with
      | some (.entity ..) => some (.ofDeclared (s.catalog.namedChildren entity))
      | _ => none := by
  simp only [candidatesAt, evaluate, candidates, hn, Content.reference?, Option.bind_some,
    memberScope?, hp, Query.eval_bind, eval_target?]
  cases s.targetAt? p with
  | none => rfl
  | some entity =>
    show Query.eval _ (match s.catalog.content? entity with
      | some (.entity ..) => _
      | _ => _) = _
    rw [Option.bind_some]
    split <;> rfl

theorem candidatesAt_literal_of_unbound {r : Reference}
    (hn : s.catalog.content? n = some (.value (.literal r))) (hm : s.memberAt? n = none) :
    s.candidatesAt n = none := by
  rw [memberAt?, evaluate] at hm
  simp only [candidatesAt, evaluate, candidates, hn, Content.reference?, Scalar.reference?,
    Option.bind_some, literalScope?, Query.eval_bind, hm]
  rfl

theorem candidatesAt_literal_of_enumeration {r r' : Reference} {m : Member} {member type : NodeId}
    (hn : s.catalog.content? n = some (.value (.literal r))) (hm : s.memberAt? n = some member)
    (hc : s.catalog.content? member = some (.member m))
    (ht : s.catalog.memberType? member = some (type, .enumeration r')) :
    s.candidatesAt n = (s.targetAt? type).bind fun enumeration ↦
      match s.catalog.content? enumeration with
      | some (.enumeration _) => some (.ofDeclared (s.catalog.namedChildren enumeration))
      | _ => none := by
  rw [memberAt?, evaluate] at hm
  simp only [candidatesAt, evaluate, candidates, hn, Content.reference?, Scalar.reference?,
    Option.bind_some, literalScope?, Query.eval_bind, hm, hc, ht, eval_target?]
  cases s.targetAt? type with
  | none => rfl
  | some enumeration =>
    show Query.eval _ (match s.catalog.content? enumeration with
      | some (.enumeration _) => _
      | _ => _) = _
    rw [Option.bind_some]
    split <;> rfl

/-- A member of another type has no literals, so none is found. -/
theorem candidatesAt_literal_of_other {r : Reference} {m : Member} {member type : NodeId}
    {w : MemberType Reference} (hn : s.catalog.content? n = some (.value (.literal r)))
    (hm : s.memberAt? n = some member) (hc : s.catalog.content? member = some (.member m))
    (ht : s.catalog.memberType? member = some (type, w)) (hw : ∀ r', w ≠ .enumeration r') :
    s.candidatesAt n = some .empty := by
  rw [memberAt?, evaluate] at hm
  simp only [candidatesAt, evaluate, candidates, hn, Content.reference?, Scalar.reference?,
    Option.bind_some, literalScope?, Query.eval_bind, hm, hc, ht]
  cases w with
  | enumeration r' => exact absurd rfl (hw r')
  | _ => rfl

/-! ### The member of a value -/

/-- A default is meant for the member above it. -/
theorem memberAt?_of_default {o : NodeId} {m : Member} (ho : s.catalog.valueOwner? n = some o)
    (hc : s.catalog.content? o = some (.member m)) : s.memberAt? n = some o := by
  simp [memberAt?, evaluate, memberOfValue?, ho, hc]

/-- A value that is assigned is meant for the member that the assignment comes to. -/
theorem memberAt?_of_assigned {o : NodeId} {r : Reference} (ho : s.catalog.valueOwner? n = some o)
    (hc : s.catalog.content? o = some (.assignment r)) : s.memberAt? n = s.targetAt? o := by
  simp [memberAt?, evaluate, memberOfValue?, ho, hc]

/-! ### The classifiers of a file -/

/-- A file sees what its imports come to, under the alias if there is one, and then what it
declares. -/
theorem entries_scopeIn (h : s.catalog.Loaded) {file : FileId} {d : Document}
    (hd : s.catalog.document? file = some d) :
    (s.scopeIn file).entries =
      (d.importItems.filterMap fun (item, rename) ↦ (s.targetAt? (d.id item)).bind fun target ↦
        (rename.or (s.catalog.name? target)).map (⟨·, target, true⟩)) ++
      (Scope.ofDeclared d.namedClassifiers).entries := by
  rw [scopeIn, answer_eq h]
  show ((s.classifierScope file).eval s.answer).entries = _
  simp only [classifierScope, hd, Query.eval_bind, importedEntries, Query.eval_choose,
    eval_target?]
  show List.filterMap _ _ ++ _ = _
  congr 1
  refine List.filterMap_congr fun x _ ↦ ?_
  cases s.targetAt? (d.id x.1) <;> rfl

theorem entries_scopeIn_of_no_document {file : FileId}
    (hd : s.catalog.document? file = none) : (s.scopeIn file).entries = [] := by
  rw [scopeIn, answer, depth, Rules.answerWithin]
  show ((s.classifierScope file).eval _).entries = _
  simp only [classifierScope, hd]
  rfl

/-! ### What a reference can come to -/

/-- What a reference comes to is among the names that can be used there. -/
theorem exists_entry_of_targetAt? (h : s.catalog.Loaded) {content : Content Reference} {site : Site}
    {r : Reference} {scope : Scope} (hn : s.catalog.content? n = some content)
    (hr : content.reference? = some (site, r)) (hs : s.candidatesAt n = some scope)
    (ht : s.targetAt? n = some t) : ∃ e ∈ scope.entries, e.name = r.text ∧ e.target = t := by
  obtain ⟨scope', hs', hlookup⟩ := exists_scope_of_found h hn hr (targetAt?_eq_some_iff.1 ht)
  rw [hs, Option.some.injEq] at hs'
  exact Scope.exists_mem_of_lookup (hs' ▸ hlookup)

/-- Also where the answers do not obey the rules, what a reference comes to was named in its scope,
by the answers from which it was found. -/
theorem exists_entry_of_eval_candidates {content : Content Reference} {site : Site} {r : Reference}
    (hn : s.catalog.content? n = some content) (hr : content.reference? = some (site, r))
    (ht : s.targetAt? n = some t) :
    ∃ answer scope, (s.candidates n).eval answer = some scope ∧
      ∃ e ∈ scope.entries, e.name = r.text ∧ e.target = t := by
  rw [targetAt?_eq_some_iff] at ht
  change (s.resolve n).eval (s.rules.answerWithin 6) = .found t at ht
  simp only [resolve, hn, hr, Option.bind_some, Query.eval_bind] at ht
  cases hs : (s.candidates n).eval (s.rules.answerWithin 6) with
  | none =>
    rw [hs] at ht
    cases ht
  | some scope =>
    rw [hs] at ht
    exact ⟨_, scope, hs, Scope.exists_mem_of_lookup ht⟩

/-- An import comes to a loaded document. -/
theorem exists_document_of_importClause (h : s.catalog.Loaded) {r : Reference}
    (hn : s.catalog.content? n = some (.importClause r)) (ht : s.targetAt? n = some t) :
    ∃ d, s.catalog.document? t.file = some d := by
  obtain ⟨own, hown⟩ := Catalog.exists_document_of_content? hn
  have hs := candidatesAt_importClause hn
  rw [hown, Option.map_some] at hs
  obtain ⟨e, he, -, rfl⟩ := exists_entry_of_targetAt? h hn rfl hs ht
  obtain ⟨d, hd, -, rfl⟩ := Catalog.mem_entries_documentScope_iff.1 he
  exact ⟨d, h.document?_of_mem (List.mem_of_find?_eq_some hd)⟩

/-- An imported item comes to a classifier. -/
theorem isClassifier_of_importItem (h : s.catalog.Loaded) {r : Reference} {rename : Option String}
    (hn : s.catalog.content? n = some (.importItem r rename)) (ht : s.targetAt? n = some t) :
    ∃ k, s.catalog.kind? t = some k ∧ k.isClassifier = true := by
  obtain ⟨p, r', hp, hc⟩ := h.exists_importClause hn
  obtain ⟨scope, hs, hlookup⟩ := exists_scope_of_found h hn rfl (targetAt?_eq_some_iff.1 ht)
  rw [candidatesAt_importItem hn hp] at hs
  obtain ⟨source, -, hs⟩ := Option.bind_eq_some_iff.1 hs
  obtain ⟨d, hd, rfl⟩ := Option.map_eq_some_iff.1 hs
  exact h.isClassifier_of_mem_namedClassifiers hd (Scope.exists_mem_of_lookup_ofDeclared hlookup)

/-- What can be named in a file are classifiers. -/
theorem isClassifier_of_mem_scopeIn (h : s.catalog.Loaded) {file : FileId} {e : ScopeEntry}
    (he : e ∈ (s.scopeIn file).entries) :
    ∃ k, s.catalog.kind? e.target = some k ∧ k.isClassifier = true := by
  cases hd : s.catalog.document? file with
  | none =>
    rw [entries_scopeIn_of_no_document hd] at he
    cases he
  | some d =>
    rw [entries_scopeIn h hd] at he
    rcases List.mem_append.1 he with he | he
    · -- an imported entry stands for what its item comes to
      obtain ⟨⟨item, rename⟩, hitem, he⟩ := List.mem_filterMap.1 he
      obtain ⟨target, ht, he⟩ := Option.bind_eq_some_iff.1 he
      obtain ⟨name, -, rfl⟩ := Option.map_eq_some_iff.1 he
      obtain ⟨r, hr⟩ := Document.content?_of_mem_importItems hitem
      rw [← Catalog.content?_id hd] at hr
      exact isClassifier_of_importItem h hr ht
    · obtain ⟨x, hx, rfl⟩ := List.mem_map.1 he
      exact h.isClassifier_of_mem_namedClassifiers hd hx

/-- The type of a member that names an entity comes to a classifier. -/
theorem isClassifier_of_entityType (h : s.catalog.Loaded) {r : Reference}
    (hn : s.catalog.content? n = some (.type (.entity r))) (ht : s.targetAt? n = some t) :
    ∃ k, s.catalog.kind? t = some k ∧ k.isClassifier = true := by
  obtain ⟨e, he, -, rfl⟩ := exists_entry_of_targetAt? h hn rfl (candidatesAt_entityType hn) ht
  exact isClassifier_of_mem_scopeIn h he

/-- The type of a member that names an enumeration comes to one. -/
theorem exists_enumeration_of_enumerationType {r : Reference}
    (hn : s.catalog.content? n = some (.type (.enumeration r))) (ht : s.targetAt? n = some t) :
    ∃ name, s.catalog.content? t = some (.enumeration name) := by
  obtain ⟨answer, scope, hs, e, he, -, rfl⟩ := exists_entry_of_eval_candidates hn rfl ht
  simp only [candidates, hn, Content.reference?, MemberType.reference?, Option.bind_some,
    Query.eval_bind, Query.eval_pure, Option.some.injEq] at hs
  rw [← hs] at he
  exact Catalog.isEnumeration_iff.1 (List.mem_filter.1 he).2

/-- A contained value comes to an entity. -/
theorem exists_entity_of_contained {r : Reference}
    (hn : s.catalog.content? n = some (.value (.contained r))) (ht : s.targetAt? n = some t) :
    ∃ name id, s.catalog.content? t = some (.entity name id) := by
  obtain ⟨answer, scope, hs, e, he, -, rfl⟩ := exists_entry_of_eval_candidates hn rfl ht
  simp only [candidates, hn, Content.reference?, Scalar.reference?, Option.bind_some,
    Query.eval_bind, Query.eval_pure, Option.some.injEq] at hs
  rw [← hs] at he
  exact Catalog.isEntity_iff.1 (List.mem_filter.1 he).2

/-- An instance comes to an entity. -/
theorem exists_entity_of_instantiation {name : String} {r : Reference}
    (hn : s.catalog.content? n = some (.instantiation name r)) (ht : s.targetAt? n = some t) :
    ∃ name id, s.catalog.content? t = some (.entity name id) := by
  obtain ⟨answer, scope, hs, e, he, -, rfl⟩ := exists_entry_of_eval_candidates hn rfl ht
  simp only [candidates, hn, Content.reference?, Option.bind_some, Query.eval_bind, Query.eval_pure,
    Option.some.injEq] at hs
  rw [← hs] at he
  -- only entities have external ids, by which the entries are named here
  obtain ⟨e', -, he⟩ := List.mem_filterMap.1 he
  obtain ⟨id, hid, rfl⟩ := Option.map_eq_some_iff.1 he
  obtain ⟨name, hname⟩ := Catalog.exists_entity_of_externalId? hid
  exact ⟨name, some id, hname⟩

/-- An assignment comes to a member of the entity of its instance. -/
theorem exists_member_of_assignment (h : s.catalog.Loaded) {r : Reference}
    (hn : s.catalog.content? n = some (.assignment r)) (ht : s.targetAt? n = some t) :
    ∃ p entity, s.catalog.parent? n = some p ∧ s.targetAt? p = some entity ∧
      t ∈ s.catalog.children entity ∧ s.catalog.name? t = some r.text ∧
      ∃ m, s.catalog.content? t = some (.member m) := by
  obtain ⟨p, name, r', hp, hc⟩ := h.exists_instantiation hn
  obtain ⟨scope, hs, hlookup⟩ := exists_scope_of_found h hn rfl (targetAt?_eq_some_iff.1 ht)
  rw [candidatesAt_assignment hn hp] at hs
  obtain ⟨entity, hentity, hs⟩ := Option.bind_eq_some_iff.1 hs
  obtain ⟨entityName, id, hce⟩ := exists_entity_of_instantiation hc hentity
  simp only [hce, Option.some.injEq] at hs
  rw [← hs] at hlookup
  obtain ⟨hchild, hname⟩ :=
    Catalog.mem_namedChildren_iff.1 (Scope.exists_mem_of_lookup_ofDeclared hlookup)
  exact ⟨p, entity, hp, hentity, hchild, hname, h.member_of_mem_children hce hchild⟩

/-- A value is meant for a member, if its owner is known. -/
theorem exists_member_of_memberAt? (h : s.catalog.Loaded) {k : Kind} {member : NodeId}
    (hk : s.catalog.kind? n = some k) (hvalue : k.isValue = true)
    (hm : s.memberAt? n = some member) : ∃ m, s.catalog.content? member = some (.member m) := by
  obtain ⟨o, ho, -, ⟨m, hc⟩ | ⟨r, hc⟩⟩ := h.exists_valueOwner hk hvalue
  · rw [memberAt?_of_default ho hc, Option.some.injEq] at hm
    exact ⟨m, hm ▸ hc⟩
  · rw [memberAt?_of_assigned ho hc] at hm
    obtain ⟨-, -, -, -, -, -, hmember⟩ := exists_member_of_assignment h hc hm
    exact hmember

/-- A literal comes to a literal of the enumeration that types its member. -/
theorem exists_literal_of_literal (h : s.catalog.Loaded) {r : Reference}
    (hn : s.catalog.content? n = some (.value (.literal r))) (ht : s.targetAt? n = some t) :
    ∃ member type r' enumeration, s.memberAt? n = some member ∧
      s.catalog.memberType? member = some (type, .enumeration r') ∧
      s.targetAt? type = some enumeration ∧ s.catalog.parent? t = some enumeration ∧
      ∃ name, s.catalog.content? t = some (.literal name) := by
  obtain ⟨scope, hs, hlookup⟩ := exists_scope_of_found h hn rfl (targetAt?_eq_some_iff.1 ht)
  cases hm : s.memberAt? n with
  | none =>
    rw [candidatesAt_literal_of_unbound hn hm] at hs
    cases hs
  | some member =>
    obtain ⟨m, hc⟩ := exists_member_of_memberAt? h (Catalog.kind?_of_content? hn) rfl hm
    obtain ⟨type, w, hw, -⟩ := h.exists_memberType hc
    by_cases henum : ∃ r', w = .enumeration r'
    · obtain ⟨r', rfl⟩ := henum
      rw [candidatesAt_literal_of_enumeration hn hm hc hw] at hs
      obtain ⟨enumeration, htarget, hs⟩ := Option.bind_eq_some_iff.1 hs
      obtain ⟨name, hce⟩ :=
        exists_enumeration_of_enumerationType (Catalog.content?_of_memberType? hw) htarget
      simp only [hce, Option.some.injEq] at hs
      rw [← hs] at hlookup
      obtain ⟨hchild, -⟩ :=
        Catalog.mem_namedChildren_iff.1 (Scope.exists_mem_of_lookup_ofDeclared hlookup)
      exact ⟨member, type, r', enumeration, rfl, hw, htarget, h.mem_children_iff.1 hchild,
        h.literal_of_mem_children hce hchild⟩
    · -- the scope is empty, so nothing is found in it
      rw [candidatesAt_literal_of_other hn hm hc hw fun r' h ↦ henum ⟨r', h⟩,
        Option.some.injEq] at hs
      rw [← hs] at hlookup
      obtain ⟨e, he, -⟩ := Scope.exists_mem_of_lookup hlookup
      cases he

end Snapshot

end Schemata
