import Schemata.Proofs.Findings

/-!
# What does not depend on ranges and texts

The names that can be used at a reference and the type of a node are found by walking through the
loaded documents and by asking what references come to. The walks never look at a range, nor at the
text of a reference: that text is read only at the very end, when it is looked up. To say this,
`Snapshot.stripped` takes all ranges away and puts every reference through a function, and the rules
by which questions are answered are the same for what is left
(`Snapshot.candidates_stripped`, `Snapshot.infer_stripped`).

Two snapshots that are the same once stripped have therefore the same answers up to a rank below
which no text differs (`Snapshot.answerWithin_eq_of_stripped`).
-/

namespace Schemata

variable {classes : Text.IdentifierClasses}

/-! ### Erasing -/

/-- A node without its range, and with its reference, if it holds one, put through a function. -/
def Node.stripped (f : Reference → Reference) (node : Node) : Node :=
  { node with content := node.content.map f, range := .empty }

/-- A document with all its nodes stripped. -/
def Document.stripped (f : Reference → Reference) (d : Document) : Document :=
  { d with rootRange := .empty, body := d.body.map (Node.stripped f) }

/-- A catalog with all its documents stripped, and without its history. -/
def Catalog.stripped (f : Reference → Reference) (c : Catalog) : Catalog :=
  ⟨⟨0⟩, c.documents.map (Document.stripped f)⟩

/-- A snapshot with all its documents stripped. -/
def Snapshot.stripped (f : Reference → Reference) (s : Snapshot) : Snapshot :=
  ⟨s.catalog.stripped f, s.settings⟩

section Stripped

variable (f : Reference → Reference)

@[simp]
theorem Node.name?_stripped (node : Node) : (node.stripped f).name? = node.name? :=
  Content.name?_map f node.content

/-! ### Stripped documents -/

namespace Document

variable (d : Document)

@[simp]
theorem node?_stripped (n : LocalId) :
    (d.stripped f).node? n = (d.node? n).map (Node.stripped f) := by
  cases n with
  | zero => rfl
  | succ n => exact List.getElem?_map

/-- What a node holds remains, but for its reference. -/
@[simp]
theorem content?_stripped (n : LocalId) :
    (d.stripped f).content? n = (d.content? n).map (Content.map f) := by
  rw [content?, node?_stripped, content?, Option.map_map, Option.map_map]
  rfl

/-- Names are content and no reference, so they remain. -/
@[simp]
theorem name?_stripped (n : LocalId) : (d.stripped f).name? n = d.name? n := by
  rw [name?, node?_stripped, name?]
  cases d.node? n with
  | none => rfl
  | some node => exact node.name?_stripped f

@[simp]
theorem parent?_stripped (n : LocalId) : (d.stripped f).parent? n = d.parent? n := by
  rw [parent?, node?_stripped, parent?]
  cases d.node? n <;> rfl

@[simp]
theorem children_stripped (n : LocalId) : (d.stripped f).children n = d.children n := by
  rw [children, node?_stripped, children]
  cases d.node? n <;> rfl

/-- The tree is the same. Only the parents are read, one after the other. -/
@[simp]
theorem ancestors_stripped (n : LocalId) : (d.stripped f).ancestors n = d.ancestors n := by
  suffices hwithin : ∀ steps n, (d.stripped f).ancestorsWithin steps n =
      d.ancestorsWithin steps n from hwithin n n
  intro steps
  induction steps with
  | zero => exact fun _ ↦ rfl
  | succ steps ih =>
    intro n
    rw [ancestorsWithin, ancestorsWithin, parent?_stripped]
    cases d.parent? n with
    | none => rfl
    | some p => exact congrArg (p :: ·) (ih p)

/-- So a document is walked through in the same order, to the same places. -/
@[simp]
theorem preorder_stripped : (d.stripped f).preorder = d.preorder := by
  have hsize : (d.stripped f).size = d.size := by simp [size, stripped]
  suffices hwithin : ∀ depth n, (d.stripped f).subtreeWithin depth n =
      d.subtreeWithin depth n by
    rw [preorder, preorder, hsize, hwithin]
  intro depth
  induction depth with
  | zero => exact fun _ ↦ rfl
  | succ depth ih =>
    intro n
    rw [subtreeWithin, subtreeWithin, children_stripped, funext ih]

@[simp]
theorem nodes_stripped : (d.stripped f).nodes = d.nodes := by
  rw [nodes, nodes, preorder_stripped]
  rfl

/-- A document declares what it declared, at the same places. -/
@[simp]
theorem namedClassifiers_stripped : (d.stripped f).namedClassifiers = d.namedClassifiers := by
  rw [namedClassifiers, namedClassifiers, named, named]
  exact List.filterMap_congr fun n _ ↦ by rw [name?_stripped]; rfl

/-- Which nodes are imported items is a matter of their kind. The name of the document they come
from is a reference and is not read here. -/
@[simp]
theorem importItems_stripped : (d.stripped f).importItems = d.importItems := by
  rw [importItems, importItems, List.flatMap_def, List.flatMap_def]
  refine congrArg _ (List.map_congr_left fun clause _ ↦ ?_)
  rw [content?_stripped, children_stripped]
  cases d.content? clause with
  | none => rfl
  | some content =>
    cases content with
    | importClause source =>
      refine List.filterMap_congr fun item _ ↦ ?_
      rw [content?_stripped]
      cases d.content? item with
      | none => rfl
      | some content => cases content <;> rfl
    | _ => rfl

/-- Whether values belong to a node is a matter of its kind. -/
@[simp]
theorem ownsValues_stripped (n : LocalId) : (d.stripped f).ownsValues n = d.ownsValues n := by
  rw [ownsValues, ownsValues, content?_stripped]
  cases d.content? n with
  | none => rfl
  | some content => cases content <;> rfl

end Document

/-! ### Stripped catalogs -/

namespace Catalog

variable (c : Catalog)

@[simp]
theorem document?_stripped (file : FileId) :
    (c.stripped f).document? file = (c.document? file).map (Document.stripped f) :=
  List.find?_map

@[simp]
theorem node?_stripped (n : NodeId) :
    (c.stripped f).node? n = (c.node? n).map (Node.stripped f) := by
  rw [node?, document?_stripped, node?]
  cases c.document? n.file with
  | none => rfl
  | some d => exact d.node?_stripped f n.index

@[simp]
theorem content?_stripped (n : NodeId) :
    (c.stripped f).content? n = (c.content? n).map (Content.map f) := by
  rw [content?, node?_stripped, content?, Option.map_map, Option.map_map]
  rfl

@[simp]
theorem name?_stripped (n : NodeId) : (c.stripped f).name? n = c.name? n := by
  rw [name?, node?_stripped, name?]
  cases c.node? n with
  | none => rfl
  | some node => exact node.name?_stripped f

@[simp]
theorem parent?_stripped (n : NodeId) : (c.stripped f).parent? n = c.parent? n := by
  rw [parent?, node?_stripped, parent?]
  cases c.node? n <;> rfl

@[simp]
theorem children_stripped (n : NodeId) : (c.stripped f).children n = c.children n := by
  rw [children, node?_stripped, children]
  cases c.node? n <;> rfl

@[simp]
theorem default?_stripped (n : NodeId) : (c.stripped f).default? n = c.default? n := by
  rw [default?, node?_stripped, default?]
  cases c.node? n <;> rfl

@[simp]
theorem assigned?_stripped (n : NodeId) : (c.stripped f).assigned? n = c.assigned? n := by
  rw [assigned?, node?_stripped, assigned?]
  cases c.node? n <;> rfl

@[simp]
theorem namedChildren_stripped (n : NodeId) :
    (c.stripped f).namedChildren n = c.namedChildren n := by
  simp only [namedChildren, children_stripped, name?_stripped]

/-- Whether something is an entity is a matter of its kind, and so are the other filters of a
scope. -/
@[simp]
theorem isEntity_stripped (n : NodeId) : (c.stripped f).isEntity n = c.isEntity n := by
  rw [isEntity, isEntity, content?_stripped]
  cases c.content? n with
  | none => rfl
  | some content => cases content <;> rfl

@[simp]
theorem isEnumeration_stripped (n : NodeId) :
    (c.stripped f).isEnumeration n = c.isEnumeration n := by
  rw [isEnumeration, isEnumeration, content?_stripped]
  cases c.content? n with
  | none => rfl
  | some content => cases content <;> rfl

/-- The id of an entity is part of the entity and no reference. -/
@[simp]
theorem externalId?_stripped (n : NodeId) : (c.stripped f).externalId? n = c.externalId? n := by
  rw [externalId?, externalId?, content?_stripped]
  cases c.content? n with
  | none => rfl
  | some content => cases content <;> rfl

@[simp]
theorem member?_stripped (n : NodeId) : (c.stripped f).member? n = c.member? n := by
  rw [member?, member?, content?_stripped]
  cases c.content? n with
  | none => rfl
  | some content => cases content <;> rfl

@[simp]
theorem typeNode?_stripped (n : NodeId) : (c.stripped f).typeNode? n = c.typeNode? n := by
  have htype : ((c.stripped f).node? n).bind (·.type?) = (c.node? n).bind (·.type?) := by
    rw [node?_stripped]
    cases c.node? n <;> rfl
  rw [typeNode?, typeNode?, content?_stripped, htype]
  cases c.content? n with
  | none => rfl
  | some content => cases content <;> rfl

/-- The type of a member is at the same node, and of the same form. -/
@[simp]
theorem memberType?_stripped (n : NodeId) :
    (c.stripped f).memberType? n = (c.memberType? n).map fun t ↦ (t.1, t.2.map f) := by
  rw [memberType?, memberType?, typeNode?_stripped]
  cases c.typeNode? n with
  | none => rfl
  | some t =>
    dsimp only
    rw [content?_stripped]
    cases c.content? t with
    | none => rfl
    | some content => cases content <;> rfl

/-- The owner of a value is the first node above it that owns values. -/
@[simp]
theorem valueOwner?_stripped (n : NodeId) : (c.stripped f).valueOwner? n = c.valueOwner? n := by
  cases hd : c.document? n.file with
  | none =>
    rw [valueOwner?, valueOwner?, document?_stripped, hd]
    rfl
  | some d =>
    have hd' : (c.stripped f).document? n.file = some (d.stripped f) := by
      rw [document?_stripped, hd]
      rfl
    rw [valueOwner?_eq hd, valueOwner?_eq hd', Document.ancestors_stripped,
      funext (d.ownsValues_stripped f)]

/-- Documents are known by their names, which no reference holds. -/
@[simp]
theorem documentScope_stripped (own : String) :
    (c.stripped f).documentScope own = c.documentScope own :=
  List.foldl_map

end Catalog

@[simp]
theorem Scope.byExternalId_stripped (c : Catalog) (scope : Scope) :
    scope.byExternalId (c.stripped f) = scope.byExternalId c := by
  simp only [Scope.byExternalId, Catalog.externalId?_stripped]

/-! ### The same rules -/

namespace Snapshot

open Inquiry

variable (s : Snapshot)

@[simp]
theorem catalog_stripped : (s.stripped f).catalog = s.catalog.stripped f := rfl

@[simp]
theorem settings_stripped : (s.stripped f).settings = s.settings := rfl

/-- The classifiers in sight of a file are found in the same way: an imported item is listed under
the name of its target, or under its new name. -/
@[simp]
theorem classifierScope_stripped (file : FileId) :
    (s.stripped f).classifierScope file = s.classifierScope file := by
  simp only [classifierScope, catalog_stripped, Catalog.document?_stripped]
  cases s.catalog.document? file with
  | none => rfl
  | some d =>
    simp only [Option.map_some, importedEntries, Document.importItems_stripped, catalog_stripped,
      Catalog.name?_stripped, Document.namedClassifiers_stripped]
    rfl

/-- What follows on a target needs to be compared for the target alone. -/
theorem bind_target?_congr {α : Type} {n : NodeId} {next next' : NodeId → Inquiry (Option α)}
    (h : ∀ t, next t = next' t) :
    (do let some t ← target? n | return none
        next t) =
      (do let some t ← target? n | return none
          next' t) := by
  rw [funext h]

/-- What an import exports is read off the document that it comes to. -/
theorem exportScope?_stripped (item : NodeId) :
    (s.stripped f).exportScope? item = s.exportScope? item := by
  have hnames (t : NodeId) :
      (((s.catalog.document? t.file).map (Document.stripped f)).map fun d ↦
        Scope.ofDeclared d.namedClassifiers) =
      (s.catalog.document? t.file).map fun d ↦ .ofDeclared d.namedClassifiers := by
    rw [Option.map_map]
    exact congrFun (congrArg _ (funext fun d ↦
      congrArg Scope.ofDeclared (d.namedClassifiers_stripped f))) _
  simp only [exportScope?, catalog_stripped, Catalog.parent?_stripped, Catalog.document?_stripped,
    hnames]

/-- The members of an instance are read off the entity that it comes to. -/
theorem memberScope?_stripped (assignment : NodeId) :
    (s.stripped f).memberScope? assignment = s.memberScope? assignment := by
  simp only [memberScope?, catalog_stripped, Catalog.parent?_stripped, Catalog.content?_stripped,
    Catalog.namedChildren_stripped]
  cases s.catalog.parent? assignment with
  | none => rfl
  | some owner =>
    refine bind_target?_congr fun entity ↦ ?_
    cases s.catalog.content? entity with
    | none => rfl
    | some content => cases content <;> rfl

/-- The literals of a value are read off the enumeration that types its member. Which one that is
remains the same question, asked at the same type node. -/
theorem literalScope?_stripped (value : NodeId) :
    (s.stripped f).literalScope? value = s.literalScope? value := by
  have howner : (s.stripped f).memberOfValue? value = s.memberOfValue? value := by
    simp only [memberOfValue?, catalog_stripped, Catalog.valueOwner?_stripped,
      Catalog.content?_stripped]
    cases s.catalog.valueOwner? value with
    | none => rfl
    | some owner =>
      dsimp only
      cases s.catalog.content? owner with
      | none => rfl
      | some content => cases content <;> rfl
  simp only [literalScope?, howner, catalog_stripped, Catalog.content?_stripped,
    Catalog.memberType?_stripped, Catalog.namedChildren_stripped]
  refine congrArg _ (funext fun owner? ↦ ?_)
  cases owner? with
  | none => rfl
  | some owner =>
    dsimp only
    cases s.catalog.content? owner with
    | none => rfl
    | some content =>
      cases content with
      | member m =>
        dsimp only [Option.map_some, Content.map]
        cases s.catalog.memberType? owner with
        | none => rfl
        | some t =>
          obtain ⟨type, written⟩ := t
          cases written with
          | enumeration r =>
            refine bind_target?_congr fun enumeration ↦ ?_
            cases s.catalog.content? enumeration with
            | none => rfl
            | some content => cases content <;> rfl
          | _ => rfl
      | _ => rfl

/-- The names that can be used at a reference are found in the same way, whatever the texts are. -/
@[simp]
theorem candidates_stripped (n : NodeId) : (s.stripped f).candidates n = s.candidates n := by
  have hscope : ((s.catalog.document? n.file).map (Document.stripped f)).map
        (fun d ↦ s.catalog.documentScope d.name) =
      (s.catalog.document? n.file).map fun d ↦ s.catalog.documentScope d.name := by
    rw [Option.map_map]
    rfl
  simp only [candidates, catalog_stripped, Catalog.content?_stripped, Catalog.document?_stripped,
    Catalog.documentScope_stripped, exportScope?_stripped, Catalog.isEnumeration_stripped,
    Catalog.isEntity_stripped, Scope.byExternalId_stripped, memberScope?_stripped,
    literalScope?_stripped, hscope]
  cases s.catalog.content? n with
  | none => rfl
  | some content =>
    rw [Option.map_some, Option.bind_some, Option.bind_some, Content.reference?_map]
    cases content.reference? <;> rfl

/-- A target that is an entity remains one. -/
theorem entityTypeAt_stripped (n : NodeId) :
    (s.stripped f).entityTypeAt n = s.entityTypeAt n := by
  simp only [entityTypeAt, catalog_stripped, Catalog.content?_stripped]
  refine bind_target?_congr fun target ↦ ?_
  cases s.catalog.content? target with
  | none => rfl
  | some content => cases content <;> rfl

/-- Likewise a target that is an enumeration. -/
theorem enumerationTypeAt_stripped (n : NodeId) :
    (s.stripped f).enumerationTypeAt n = s.enumerationTypeAt n := by
  simp only [enumerationTypeAt, catalog_stripped, Catalog.content?_stripped]
  refine bind_target?_congr fun target ↦ ?_
  cases s.catalog.content? target with
  | none => rfl
  | some content => cases content <;> rfl

/-- The type of a member is asked of its type node, whatever that names. -/
@[simp]
theorem declaredType_stripped (member : NodeId) :
    (s.stripped f).declaredType member = s.declaredType member := by
  simp only [declaredType, catalog_stripped, Catalog.typeNode?_stripped]

/-- The type of a node is found in the same way, whatever the texts are. -/
@[simp]
theorem infer_stripped (n : NodeId) : (s.stripped f).infer n = s.infer n := by
  simp only [infer, catalog_stripped, Catalog.content?_stripped, entityTypeAt_stripped,
    enumerationTypeAt_stripped, declaredType_stripped, Catalog.parent?_stripped]
  cases s.catalog.content? n with
  | none => rfl
  | some content =>
    cases content with
    | type t => cases t <;> rfl
    | value v => cases v <;> rfl
    | _ => rfl

end Snapshot

end Stripped

/-! ### The same answers -/

/-- The text of the reference at a node. -/
def Catalog.text? (c : Catalog) (n : NodeId) : Option String :=
  ((c.content? n).bind (·.reference?)).map (·.2.text)

namespace Snapshot

variable {s s' : Snapshot}

/-- Where the names are the same and the text is the same, so is what a reference comes to. -/
theorem resolve_congr {n : NodeId} (hcandidates : s'.candidates n = s.candidates n)
    (htext : s'.catalog.text? n = s.catalog.text? n) : s'.resolve n = s.resolve n := by
  rw [Catalog.text?, Catalog.text?] at htext
  rw [resolve, resolve, hcandidates]
  cases hr : (s.catalog.content? n).bind (·.reference?) with
  | none =>
    rw [hr, Option.map_none, Option.map_eq_none_iff] at htext
    rw [htext]
  | some r =>
    rw [hr, Option.map_some, Option.map_eq_some_iff] at htext
    obtain ⟨r', hr', htext⟩ := htext
    rw [hr']
    dsimp only
    rw [htext]

section SameOnceStripped

variable {f : Reference → Reference} (h : s'.stripped f = s.stripped f)
include h

theorem candidates_eq_of_stripped (n : NodeId) : s'.candidates n = s.candidates n := by
  rw [← candidates_stripped f s', h, candidates_stripped]

variable (hloaded : s.catalog.Loaded)
include hloaded

/-- Below a rank up to which no text differs the rules are the same, and so are the answers, since a
rule asks only questions of lower rank. -/
theorem answerWithin_eq_of_stripped {k : Nat}
    (htext : ∀ n, s.rank (.resolution n) < k → s'.catalog.text? n = s.catalog.text? n)
    (depth : Nat) (q : Question) (hq : s.rank q < k) :
    s.rules.answerWithin depth q = s'.rules.answerWithin depth q := by
  induction depth generalizing q with
  | zero => rfl
  | succ depth ih =>
    have hrule : s'.rules.rule q = s.rules.rule q := by
      cases q with
      | resolution n => exact resolve_congr (candidates_eq_of_stripped h n) (htext n hq)
      | dataType n =>
        show s'.infer n = s.infer n
        rw [← infer_stripped f s', h, infer_stripped]
      | classifiers file =>
        show s'.classifierScope file = s.classifierScope file
        rw [← classifierScope_stripped f s', h, classifierScope_stripped]
    rw [Rules.answerWithin, Rules.answerWithin, hrule]
    exact Query.eval_congr fun q' hq' ↦ ih q' ((ranked_rules hloaded depth q q' hq').trans hq)

section Reference

variable {n : NodeId} {content : Content Reference} {site : Site} {r : Reference}
  (hn : s.catalog.content? n = some content) (hr : content.reference? = some (site, r))
  (htext : ∀ m, s.rank (.resolution m) < site.rank → s'.catalog.text? m = s.catalog.text? m)
include hn hr htext

/-- The names that can be used at a reference are the same if the texts of all references of lower
rank are, to whatever depth it is asked. -/
theorem eval_candidates_of_stripped (depth : Nat) :
    (s'.candidates n).eval (s'.rules.answerWithin depth) =
      (s.candidates n).eval (s.rules.answerWithin depth) := by
  rw [candidates_eq_of_stripped h]
  refine (Query.eval_congr fun q hq ↦ ?_).symm
  have hrank := rank_lt_of_mem_asked_candidates hloaded _ hn hr hq
  exact answerWithin_eq_of_stripped h hloaded htext depth q hrank

theorem candidatesAt_eq_of_stripped : s'.candidatesAt n = s.candidatesAt n :=
  eval_candidates_of_stripped h hloaded hn hr htext depth

/-- The reference comes to what its own text stands for among the same names. -/
theorem resolutionAt_of_stripped {content' : Content Reference} {r' : Reference}
    (hn' : s'.catalog.content? n = some content') (hr' : content'.reference? = some (site, r')) :
    s'.resolutionAt n = match s.candidatesAt n with
      | none => .blocked
      | some scope => scope.lookup r'.text := by
  have hsite : site.rank < 6 := by cases site <;> decide
  -- what is asked for the names has an answer before the depth of the recursion is reached
  have hcandidates : (s'.candidates n).eval (s'.rules.answerWithin 6) = s.candidatesAt n := by
    rw [eval_candidates_of_stripped h hloaded hn hr htext]
    refine Query.eval_congr fun q hq ↦ ?_
    have hrank := (rank_lt_of_mem_asked_candidates hloaded _ hn hr hq).trans hsite
    exact (ranked_rules hloaded).answerWithin_eq hrank (Nat.lt_succ_of_lt hrank)
  rw [resolutionAt, answer, depth, Rules.answerWithin]
  show (s'.resolve n).eval _ = _
  simp only [resolve, hn', hr', Option.bind_some, Query.eval_bind, hcandidates]
  cases s.candidatesAt n <;> rfl

end Reference

end SameOnceStripped

end Snapshot

end Schemata
