import Schemata.Proofs.Imports
import Schemata.Proofs.InStep

/-!
# Snapshots that agree

Two snapshots agree on some files (`Snapshot.AgreeOn`) if these hold the same documents in both, and
if the imports of these come to the same documents, which are among these files again. Then every
question about a node of these files has the same answer in both, and the answer does not lead out
of them (`Snapshot.AgreeOn.answer_eq`).

Only an import looks at documents by name, and so at the order in which they were loaded. What
imports come to is therefore assumed here and not derived. Everything else that is asked walks from
a node to nodes of the same file, or follows an answer, and this is why the two sides stay in step:
there is one lemma for each inquiry, and the induction on the depth of the recursion puts them
together.
-/

namespace Schemata

namespace Question

/-- The file that a question is about. -/
def file : Question → FileId
  | .resolution site => site.file
  | .dataType n => n.file
  | .classifiers file => file

end Question

section Within

variable (p : FileId → Prop)

/-- Whether the declaration of a type, if it has one, is in some files. -/
def DataType.StaysIn : DataType → Prop
  | .enumeration n | .entity n => p n.file
  | .boolean | .integer | .float | .string => True

/-- Whether a scope holds only nodes of some files. -/
def Scope.StaysIn (scope : Scope) : Prop := ∀ e ∈ scope.entries, p e.target.file

/-- Whether an answer leads only to nodes of some files. -/
def Question.StaysIn : (q : Question) → q.Answer → Prop
  | .resolution _, r => ∀ t ∈ r.targets, p t.file
  | .dataType _, type? => ∀ t ∈ type?, t.StaysIn p
  | .classifiers _, scope => scope.StaysIn p

/-- The answer of last resort leads nowhere. -/
theorem Question.staysIn_noAnswer (q : Question) : q.StaysIn p q.noAnswer := by
  cases q <;> simp [StaysIn, noAnswer, Resolution.targets, Scope.StaysIn, Scope.empty]

/-- Whether two nodes, if there are any, are the same and in some files. -/
abbrev SameTarget : Option NodeId → Option NodeId → Prop :=
  SameWith fun t? ↦ ∀ t ∈ t?, p t.file

/-- Whether two scopes, if there are any, are the same and in some files. -/
abbrev SameScope : Option Scope → Option Scope → Prop :=
  SameWith fun scope? ↦ ∀ scope ∈ scope?, scope.StaysIn p

/-- Whether two types, if there are any, are the same and in some files. -/
abbrev SameType : Option DataType → Option DataType → Prop :=
  SameWith fun t? ↦ ∀ t ∈ t?, t.StaysIn p

variable {p}

theorem Scope.staysIn_ofDeclared {names : List (String × NodeId)} (h : ∀ x ∈ names, p x.2.file) :
    (Scope.ofDeclared names).StaysIn p := by
  intro e he
  obtain ⟨x, hx, rfl⟩ := List.mem_map.1 he
  exact h x hx

/-- What a document declares stays in it. -/
theorem Document.staysIn_namedClassifiers {d : Document} (hd : p d.file) :
    (Scope.ofDeclared d.namedClassifiers).StaysIn p :=
  Scope.staysIn_ofDeclared fun _ hx ↦ d.file_of_mem_namedClassifiers hx ▸ hd

/-- The children of a node stay in the file of the node. -/
theorem Catalog.staysIn_namedChildren (c : Catalog) {n : NodeId} (hn : p n.file) :
    (Scope.ofDeclared (c.namedChildren n)).StaysIn p :=
  Scope.staysIn_ofDeclared fun _ hx ↦ file_of_mem_children (mem_namedChildren_iff.1 hx).1 ▸ hn

theorem Scope.StaysIn.filter {scope : Scope} (h : scope.StaysIn p) (keep : ScopeEntry → Bool) :
    (scope.filter keep).StaysIn p :=
  fun e he ↦ h e (List.mem_filter.1 he).1

/-- Entries keyed by external ids are entries of the same nodes. -/
theorem Scope.StaysIn.byExternalId {scope : Scope} (h : scope.StaysIn p) (c : Catalog) :
    (scope.byExternalId c).StaysIn p := by
  intro e he
  obtain ⟨e', he', heq⟩ := List.mem_filterMap.1 he
  obtain ⟨id, -, rfl⟩ := Option.map_eq_some_iff.1 heq
  exact h e' he'

/-- A look-up comes to nodes of the scope. -/
theorem Scope.StaysIn.lookup {scope : Scope} (h : scope.StaysIn p) (name : String) :
    ∀ t ∈ (scope.lookup name).targets, p t.file := by
  intro t ht
  obtain ⟨e, he, -, rfl⟩ := mem_meanings_iff.1 (mem_meanings_of_mem_targets ht)
  exact h e he

end Within

/-- Only an import clause refers to a document by its name. -/
theorem Content.eq_importClause {content : Content Reference} {r : Reference}
    (h : content.reference? = some (.importSource, r)) : content = .importClause r := by
  match content, h with
  | .importClause r', rfl => rfl
  | .type w, h => cases w <;> cases h
  | .value v, h => cases v <;> cases h

/-! ### Catalogs with the same document of a file -/

namespace Catalog

variable {c c' : Catalog} {n : NodeId} (h : c'.document? n.file = c.document? n.file)
include h

/-- A node is looked up in the document of its file, and so is all that is read off it. -/
theorem node?_congr : c'.node? n = c.node? n := by rw [node?, node?, h]

theorem content?_congr : c'.content? n = c.content? n := by rw [content?, content?, node?_congr h]

theorem name?_congr : c'.name? n = c.name? n := by rw [name?, name?, node?_congr h]

theorem parent?_congr : c'.parent? n = c.parent? n := by rw [parent?, parent?, node?_congr h]

theorem children_congr : c'.children n = c.children n := by rw [children, children, node?_congr h]

theorem range_congr : c'.range n = c.range n := by rw [range, range, node?_congr h]

theorem default?_congr : c'.default? n = c.default? n := by rw [default?, default?, node?_congr h]

theorem assigned?_congr : c'.assigned? n = c.assigned? n := by
  rw [assigned?, assigned?, node?_congr h]

/-- The children of a node are nodes of the same file, so their names are the same too. -/
theorem namedChildren_congr : c'.namedChildren n = c.namedChildren n := by
  rw [namedChildren, namedChildren, children_congr h]
  refine List.filterMap_congr fun child hchild ↦ ?_
  rw [name?_congr (n := child) (file_of_mem_children hchild ▸ h)]

theorem isEntity_congr : c'.isEntity n = c.isEntity n := by
  rw [isEntity, isEntity, content?_congr h]

theorem isEnumeration_congr : c'.isEnumeration n = c.isEnumeration n := by
  rw [isEnumeration, isEnumeration, content?_congr h]

theorem externalId?_congr : c'.externalId? n = c.externalId? n := by
  rw [externalId?, externalId?, content?_congr h]

theorem member?_congr : c'.member? n = c.member? n := by rw [member?, member?, content?_congr h]

theorem typeNode?_congr : c'.typeNode? n = c.typeNode? n := by
  rw [typeNode?, typeNode?, content?_congr h, node?_congr h]

/-- The type of a member is a node of the same file. -/
theorem memberType?_congr : c'.memberType? n = c.memberType? n := by
  rw [memberType?, memberType?, typeNode?_congr h]
  cases ht : c.typeNode? n with
  | none => rfl
  | some t =>
    dsimp only
    rw [content?_congr (n := t) (file_of_typeNode? ht ▸ h)]

theorem valueOwner?_congr : c'.valueOwner? n = c.valueOwner? n := by
  rw [valueOwner?, valueOwner?, h]

theorem qualifiedName_congr : c'.qualifiedName n = c.qualifiedName n := by
  rw [qualifiedName, qualifiedName, h]

end Catalog

namespace Snapshot

/-- Whether two snapshots have the same documents of some files, and the imports of these come to
the same documents, which are among these files. -/
structure AgreeOn (p : FileId → Prop) (s s' : Snapshot) : Prop where
  document? : ∀ file, p file → s'.catalog.document? file = s.catalog.document? file
  clause : ∀ n r, p n.file → s.catalog.content? n = some (.importClause r) →
    s'.resolutionAt n = s.resolutionAt n
  closed : ∀ n r, p n.file → s.catalog.content? n = some (.importClause r) →
    ∀ t ∈ (s.resolutionAt n).targets, p t.file

/-- Whether two inquiries ask the same about some files, for as long as no answer leads out of them,
and have related results. -/
abbrev InStep (p : FileId → Prop) {α β : Type} (R : α → β → Prop) (x : Inquiry α) (y : Inquiry β) :
    Prop :=
  Query.InStep (fun q ↦ p q.file) (Question.StaysIn p) R x y

open Inquiry

namespace AgreeOn

variable {p : FileId → Prop} {s s' : Snapshot} (h : AgreeOn p s s') {n : NodeId} (hn : p n.file)

/-! ### Inquiries about what references come to -/

omit h in
include hn in
/-- The target of a reference is one step along its answer. -/
theorem inStep_target? :
    Snapshot.InStep p (SameTarget p) (target? n) (target? n) := by
  refine (Query.InStep.question (q := Question.resolution n) hn).map fun r r' hr ↦ ?_
  obtain ⟨rfl, hgood⟩ := hr
  refine ⟨rfl, fun t ht ↦ hgood t ?_⟩
  rw [Option.mem_def, Resolution.target?_eq_some_iff] at ht
  rw [ht]
  exact List.mem_singleton_self t

include h

/-- An imported item is listed under the name of what it comes to, which may be in another file. It
is one of these files because answers do not lead out of them. -/
theorem inStep_importedEntries {d : Document} (hd : p d.file) :
    Snapshot.InStep p (SameWith fun es ↦ ∀ e ∈ es, p e.target.file) (s.importedEntries d)
      (s'.importedEntries d) := by
  refine Query.InStep.choose fun x _ ↦ ?_
  obtain ⟨item, rename⟩ := x
  refine (inStep_target? (n := d.id item) hd).bind_option .pure_none fun t hfile ↦ ?_
  have hname : s'.catalog.name? t = s.catalog.name? t :=
    Catalog.name?_congr (h.document? _ hfile)
  dsimp only
  rw [hname]
  refine .pure ⟨rfl, fun e he ↦ ?_⟩
  obtain ⟨name, -, rfl⟩ := Option.map_eq_some_iff.1 he
  exact hfile

/-- The classifiers in sight are the imported ones and those of the document itself. -/
theorem inStep_classifierScope {file : FileId} (hfile : p file) :
    Snapshot.InStep p (SameWith (·.StaysIn p)) (s.classifierScope file)
      (s'.classifierScope file) := by
  rw [classifierScope, classifierScope, h.document? file hfile]
  cases hd : s.catalog.document? file with
  | none => exact .pure ⟨rfl, by simp [Scope.StaysIn, Scope.empty]⟩
  | some d =>
    have hd : p d.file := Catalog.document?_eq_some hd ▸ hfile
    refine (h.inStep_importedEntries hd).bind_same fun es hes ↦ .pure ⟨rfl, fun e he ↦ ?_⟩
    rcases List.mem_append.1 he with he | he
    · exact hes e he
    · exact Document.staysIn_namedClassifiers hd e he

include hn

/-- An imported item is looked for in the document that its import comes to. -/
theorem inStep_exportScope? :
    Snapshot.InStep p (SameScope p) (s.exportScope? n) (s'.exportScope? n) := by
  rw [exportScope?, exportScope?, Catalog.parent?_congr (h.document? _ hn)]
  cases hp : s.catalog.parent? n with
  | none => exact .pure_none
  | some clause =>
    have hclause : p clause.file := Catalog.file_of_parent? hp ▸ hn
    refine (inStep_target? hclause).bind_option .pure_none fun source hsource ↦ ?_
    dsimp only
    rw [h.document? _ hsource]
    refine .pure ⟨rfl, fun scope hscope ↦ ?_⟩
    obtain ⟨d, hd, rfl⟩ := Option.map_eq_some_iff.1 hscope
    have hfile : d.file = source.file := Catalog.document?_eq_some hd
    exact Document.staysIn_namedClassifiers (hfile ▸ hsource)

/-- An assigned member is looked for in the entity of the instance. -/
theorem inStep_memberScope? :
    Snapshot.InStep p (SameScope p) (s.memberScope? n) (s'.memberScope? n) := by
  rw [memberScope?, memberScope?, Catalog.parent?_congr (h.document? _ hn)]
  cases hp : s.catalog.parent? n with
  | none => exact .pure_none
  | some owner =>
    have howner : p owner.file := Catalog.file_of_parent? hp ▸ hn
    refine (inStep_target? howner).bind_option .pure_none fun entity hfile ↦ ?_
    dsimp only
    rw [Catalog.content?_congr (h.document? _ hfile),
      Catalog.namedChildren_congr (h.document? _ hfile)]
    split
    · exact .pure_some (s.catalog.staysIn_namedChildren hfile)
    · exact .pure_none

/-- The member that a value belongs to is its owner, or the target of its owner if that is an
assignment. -/
theorem inStep_memberOfValue? :
    Snapshot.InStep p (SameTarget p) (s.memberOfValue? n) (s'.memberOfValue? n) := by
  rw [memberOfValue?, memberOfValue?, Catalog.valueOwner?_congr (h.document? _ hn)]
  cases ho : s.catalog.valueOwner? n with
  | none => exact .pure_none
  | some owner =>
    have howner : p owner.file := Catalog.file_of_valueOwner? ho ▸ hn
    dsimp only
    rw [Catalog.content?_congr (h.document? _ howner)]
    split
    · exact inStep_target? howner
    · exact .pure_some howner

/-- A literal is looked for in the enumeration that types the member. This is the longest walk there
is: from the value to its member, to the type of that, and to the target of the type. -/
theorem inStep_literalScope? :
    Snapshot.InStep p (SameScope p) (s.literalScope? n) (s'.literalScope? n) := by
  refine (h.inStep_memberOfValue? hn).bind_option .pure_none fun owner howner ↦ ?_
  dsimp only
  rw [Catalog.content?_congr (h.document? _ howner),
    Catalog.memberType?_congr (h.document? _ howner)]
  split
  · split
    · rename_i type _ htype
      have hfile : p type.file := Catalog.file_of_memberType? htype ▸ howner
      refine (inStep_target? hfile).bind_option .pure_none fun enumeration hfile ↦ ?_
      dsimp only
      rw [Catalog.content?_congr (h.document? _ hfile),
        Catalog.namedChildren_congr (h.document? _ hfile)]
      split
      · exact .pure_some (s.catalog.staysIn_namedChildren hfile)
      · exact .pure_none
    · exact .pure ⟨rfl, by simp [Scope.StaysIn, Scope.empty]⟩
  · exact .pure_none

/-- At a site that is no import, both snapshots see the same scope. -/
theorem inStep_candidates (hclause : ∀ r, s.catalog.content? n ≠ some (.importClause r)) :
    Snapshot.InStep p (SameScope p) (s.candidates n) (s'.candidates n) := by
  have hclassifiers : Snapshot.InStep p (SameWith (·.StaysIn p)) (classifiers n.file)
      (classifiers n.file) := Query.InStep.question (q := Question.classifiers n.file) hn
  rw [candidates, candidates, Catalog.content?_congr (h.document? _ hn)]
  cases hc : (s.catalog.content? n).bind (·.reference?) with
  | none => exact .pure_none
  | some sr =>
    obtain ⟨site, r⟩ := sr
    cases site with
    | importSource =>
      obtain ⟨content, hcontent, hr⟩ := Option.bind_eq_some_iff.1 hc
      exact absurd (hcontent.trans (congrArg some (Content.eq_importClause hr))) (hclause r)
    | importItem => exact h.inStep_exportScope? hn
    | entityType =>
      refine hclassifiers.map fun scope scope' hscope ↦ ⟨congrArg some hscope.1, ?_⟩
      exact fun _ hs ↦ Option.some.inj hs ▸ hscope.2
    | enumerationType =>
      refine hclassifiers.bind_same fun scope hscope ↦ ?_
      have heq : (scope.filter fun e ↦ s'.catalog.isEnumeration e.target) =
          scope.filter fun e ↦ s.catalog.isEnumeration e.target :=
        congrArg Scope.mk (List.filter_congr fun e he ↦
          Catalog.isEnumeration_congr (h.document? _ (hscope e he)))
      exact .pure ⟨congrArg some heq, fun _ hs ↦ Option.some.inj hs ▸ hscope.filter _⟩
    | containedValue =>
      refine hclassifiers.bind_same fun scope hscope ↦ ?_
      have heq : (scope.filter fun e ↦ s'.catalog.isEntity e.target) =
          scope.filter fun e ↦ s.catalog.isEntity e.target :=
        congrArg Scope.mk (List.filter_congr fun e he ↦
          Catalog.isEntity_congr (h.document? _ (hscope e he)))
      exact .pure ⟨congrArg some heq, fun _ hs ↦ Option.some.inj hs ▸ hscope.filter _⟩
    | instanceEntity =>
      refine hclassifiers.bind_same fun scope hscope ↦ ?_
      have heq : scope.byExternalId s'.catalog = scope.byExternalId s.catalog :=
        congrArg Scope.mk (List.filterMap_congr fun e he ↦ by
          rw [Catalog.externalId?_congr (h.document? _ (hscope e he))])
      exact .pure ⟨congrArg some heq, fun _ hs ↦ Option.some.inj hs ▸ hscope.byExternalId _⟩
    | assignedMember => exact h.inStep_memberScope? hn
    | literalValue => exact h.inStep_literalScope? hn

/-- What a reference comes to is a look-up in the scope of its site, and imports are set apart. -/
theorem inStep_resolve (hclause : ∀ r, s.catalog.content? n ≠ some (.importClause r)) :
    Snapshot.InStep p (SameWith fun r ↦ ∀ t ∈ r.targets, p t.file) (s.resolve n)
      (s'.resolve n) := by
  rw [resolve, resolve, Catalog.content?_congr (h.document? _ hn)]
  have hblocked : ∀ t ∈ Resolution.blocked.targets, p t.file := by simp [Resolution.targets]
  cases hc : (s.catalog.content? n).bind (·.reference?) with
  | none => exact .pure ⟨rfl, hblocked⟩
  | some sr =>
    exact (h.inStep_candidates hn hclause).bind_option (.pure ⟨rfl, hblocked⟩) fun scope hscope ↦
      .pure ⟨rfl, hscope.lookup _⟩

/-! ### Inquiries about types -/

/-- A reference to an entity has the type of its target. -/
theorem inStep_entityTypeAt :
    Snapshot.InStep p (SameType p) (s.entityTypeAt n) (s'.entityTypeAt n) := by
  refine (inStep_target? hn).bind_option .pure_none fun target hfile ↦ ?_
  dsimp only
  rw [Catalog.content?_congr (h.document? _ hfile)]
  split
  · exact .pure_some hfile
  · exact .pure_none

theorem inStep_enumerationTypeAt :
    Snapshot.InStep p (SameType p) (s.enumerationTypeAt n) (s'.enumerationTypeAt n) := by
  refine (inStep_target? hn).bind_option .pure_none fun target hfile ↦ ?_
  dsimp only
  rw [Catalog.content?_congr (h.document? _ hfile)]
  split
  · exact .pure_some hfile
  · exact .pure_none

omit h in
/-- A literal has the type of its target, whatever that is. -/
theorem inStep_literalTypeAt :
    Snapshot.InStep p (SameType p) (literalTypeAt n) (literalTypeAt n) :=
  (inStep_target? hn).bind_option .pure_none fun target hfile ↦
    Query.InStep.question (q := Question.dataType target) hfile

/-- A member has the type of its type node, which is in the same file. -/
theorem inStep_declaredType :
    Snapshot.InStep p (SameType p) (s.declaredType n) (s'.declaredType n) := by
  rw [declaredType, declaredType, Catalog.typeNode?_congr (h.document? _ hn)]
  split
  · rename_i type htype
    have hfile : p type.file := Catalog.file_of_typeNode? htype ▸ hn
    exact Query.InStep.question (q := Question.dataType type) hfile
  · exact .pure_none

/-- Content by content: the type of a node is the same in both snapshots. -/
theorem inStep_infer :
    Snapshot.InStep p (SameType p) (s.infer n) (s'.infer n) := by
  rw [infer, infer, Catalog.content?_congr (h.document? _ hn)]
  cases s.catalog.content? n with
  | none => exact .pure_none
  | some content =>
    cases content with
    | type t =>
      cases t with
      | enumeration _ => exact h.inStep_enumerationTypeAt hn
      | entity _ => exact h.inStep_entityTypeAt hn
      | boolean | integer | float | string => exact .pure_some trivial
    | value v =>
      cases v with
      | literal _ => exact inStep_literalTypeAt hn
      | contained _ => exact h.inStep_entityTypeAt hn
      | boolean _ | integer _ | float _ | string _ => exact .pure_some trivial
    | instantiation name r => exact h.inStep_entityTypeAt hn
    | entity name id => exact .pure_some hn
    | enumeration name => exact .pure_some hn
    | literal name =>
      dsimp only
      rw [Catalog.parent?_congr (h.document? _ hn)]
      refine .pure ⟨rfl, fun t ht ↦ ?_⟩
      obtain ⟨parent, hparent, rfl⟩ := Option.map_eq_some_iff.1 ht
      show p parent.file
      rw [Catalog.file_of_parent? hparent]
      exact hn
    | member m => exact h.inStep_declaredType hn
    | assignment r =>
      exact (inStep_target? hn).bind_option .pure_none fun member hmember ↦
        h.inStep_declaredType hmember
    | root _ | importClause _ | importItem _ _ | array => exact .pure_none

omit hn

/-! ### The answers -/

/-- At every depth of the recursion the answers are the same, and stay in these files. -/
theorem answerWithin_eq (depth : Nat) (q : Question) (hq : p q.file) :
    s'.rules.answerWithin depth q = s.rules.answerWithin depth q ∧
      q.StaysIn p (s.rules.answerWithin depth q) := by
  induction depth generalizing q with
  | zero => exact ⟨rfl, Question.staysIn_noAnswer p q⟩
  | succ depth ih =>
    by_cases hclause : ∃ n r, q = .resolution n ∧ s.catalog.content? n = some (.importClause r)
    · -- an import asks nothing, so the depth does not matter to what it comes to
      obtain ⟨n, r, rfl, hc⟩ := hclause
      have hsame : s'.catalog.document? n.file = s.catalog.document? n.file := h.document? _ hq
      obtain ⟨d, hd⟩ := Catalog.exists_document_of_content? hc
      have hd' : s'.catalog.document? n.file = some d := hsame.trans hd
      have hc' : s'.catalog.content? n = some (.importClause r) :=
        (Catalog.content?_congr hsame).trans hc
      have hplain : s.rules.answerWithin (depth + 1) (.resolution n) = s.resolutionAt n :=
        (answerWithin_importClause depth hd hc).trans (answerWithin_importClause 6 hd hc).symm
      have hplain' : s'.rules.answerWithin (depth + 1) (.resolution n) = s'.resolutionAt n :=
        (answerWithin_importClause depth hd' hc').trans (answerWithin_importClause 6 hd' hc').symm
      rw [hplain, hplain']
      exact ⟨h.clause n r hq hc, h.closed n r hq hc⟩
    · rw [Rules.answerWithin, Rules.answerWithin]
      cases q with
      | resolution n =>
        have hother : ∀ r, s.catalog.content? n ≠ some (.importClause r) := fun r hc ↦
          hclause ⟨n, r, rfl, hc⟩
        exact (h.inStep_resolve hq hother).eval ih
      | dataType n => exact (h.inStep_infer hq).eval ih
      | classifiers file => exact (h.inStep_classifierScope hq).eval ih

/-- **Snapshots that agree on some files have the same answers about them**, and no answer leads out
of these files. -/
theorem answer_eq (q : Question) (hq : p q.file) :
    s'.answer q = s.answer q ∧ q.StaysIn p (s.answer q) :=
  h.answerWithin_eq depth q hq

/-- The answers about references, in particular. -/
theorem resolutionAt_eq (hn : p n.file) : s'.resolutionAt n = s.resolutionAt n :=
  (h.answer_eq (.resolution n) hn).1

/-- And the answers about types. -/
theorem typeAt?_eq (hn : p n.file) : s'.typeAt? n = s.typeAt? n :=
  (h.answer_eq (.dataType n) hn).1

/-- Inquiries in step about these files have related results. -/
theorem evaluate {α β : Type} {R : α → β → Prop} {x : Inquiry α} {y : Inquiry β}
    (hxy : Snapshot.InStep p R x y) : R (s.evaluate x) (s'.evaluate y) :=
  hxy.eval h.answer_eq

/-- At a site that is no import, both snapshots offer the same candidates. -/
theorem candidatesAt_eq (hn : p n.file)
    (hclause : ∀ r, s.catalog.content? n ≠ some (.importClause r)) :
    s'.candidatesAt n = s.candidatesAt n :=
  (h.evaluate (h.inStep_candidates hn hclause)).1

end AgreeOn

end Snapshot

end Schemata
