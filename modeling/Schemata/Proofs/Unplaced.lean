import Schemata.Proofs.CheckAgreement
import Schemata.Proofs.Erasure

/-!
# Checks without ranges

Where all ranges are taken away from the loaded documents, questions have the answers that they had
(`Snapshot.evaluate_unplaced`), and a check finds what it found, with the ranges taken away from the
findings (`Snapshot.check_unplaced`). The ranges of a document are only copied: none is compared,
measured or written into a message.
-/

namespace Schemata

/-! ### Without ranges -/

/-- A reference without its range. -/
def Reference.unplaced (r : Reference) : Reference := ⟨r.text, .empty⟩

/-- A document with all ranges taken away. -/
abbrev Document.unplaced (d : Document) : Document := d.stripped Reference.unplaced

/-- A catalog with all ranges taken away. -/
abbrev Catalog.unplaced (c : Catalog) : Catalog := c.stripped Reference.unplaced

/-- A snapshot with all ranges taken away. -/
abbrev Snapshot.unplaced (s : Snapshot) : Snapshot := s.stripped Reference.unplaced

/-- Something related to a finding, without its range. -/
def Related.unplaced (x : Related) : Related := { x with range := .empty }

/-- A finding without ranges. -/
def Diagnostic.unplaced (x : Diagnostic) : Diagnostic :=
  { x with range := .empty, related := x.related.map Related.unplaced }

/-- A message is made of the messages of what is related, and not of where that is. -/
theorem Problem.message_unplaced (p : Problem) (related : List Related) :
    p.message (related.map Related.unplaced) = p.message related := by
  have hmessages : (related.map Related.unplaced).map (·.message) = related.map (·.message) := by
    rw [List.map_map]
    rfl
  unfold message
  rw [hmessages]

/-- A report has the wording that it had. -/
@[simp]
theorem Problem.unplaced_report (p : Problem) (n : NodeId) (range : Range)
    (related : List Related) :
    (p.report n range related).unplaced = p.report n .empty (related.map Related.unplaced) := by
  rw [report, report, Diagnostic.unplaced, message_unplaced]

/-! ### Look-ups -/

namespace Catalog

variable (c : Catalog)

/-- Without its range, a reference has the text that it had. -/
@[simp]
theorem text?_unplaced (n : NodeId) : c.unplaced.text? n = c.text? n := by
  rw [text?, text?, content?_stripped]
  cases c.content? n with
  | none => rfl
  | some content =>
    rw [Option.map_some, Option.bind_some, Option.bind_some, Content.reference?_map, Option.map_map]
    rfl

@[simp]
theorem range_unplaced (n : NodeId) : c.unplaced.range n = .empty := by
  rw [range, node?_stripped]
  cases c.node? n <;> rfl

/-- A qualified name is put together from the names above a node. -/
@[simp]
theorem qualifiedName_unplaced (n : NodeId) : c.unplaced.qualifiedName n = c.qualifiedName n := by
  rw [qualifiedName, qualifiedName, document?_stripped]
  cases c.document? n.file with
  | none => rfl
  | some d =>
    simp only [Option.map_some, Document.ancestors_stripped, funext (d.name?_stripped _)]

/-- The same names have to differ. -/
@[simp]
theorem siblings?_unplaced (n : NodeId) : c.unplaced.siblings? n = c.siblings? n := by
  rw [siblings?, siblings?, node?_stripped, document?_stripped, children_stripped]
  cases c.node? n with
  | none => rfl
  | some node =>
    obtain ⟨content, parent, children, range⟩ := node
    cases content with
    | root name => cases c.document? n.file <;> rfl
    | _ => rfl

@[simp]
theorem assignedNames_unplaced (n : NodeId) : c.unplaced.assignedNames n = c.assignedNames n := by
  rw [assignedNames, assignedNames, children_stripped]
  refine List.filterMap_congr fun a _ ↦ ?_
  rw [content?_stripped]
  cases c.content? a with
  | none => rfl
  | some content => cases content <;> rfl

/-- Which members are required is a matter of their role and of whether they have a default. -/
@[simp]
theorem requiredNames_unplaced (n : NodeId) : c.unplaced.requiredNames n = c.requiredNames n := by
  simp only [requiredNames, children_stripped, member?_stripped, default?_stripped]

theorem asCandidate_unplaced (t : NodeId) :
    c.unplaced.asCandidate t = (c.asCandidate t).unplaced := by
  rw [asCandidate, range_unplaced, qualifiedName_unplaced]
  rfl

/-- What is declared elsewhere is offered without ranges. -/
theorem declaredElsewhere_unplaced (file : FileId) (site : Site) (name : String) :
    c.unplaced.declaredElsewhere file site name =
      (c.declaredElsewhere file site name).map Related.unplaced := by
  have hglobal : c.unplaced.globalScope file = c.globalScope file := by
    rw [globalScope, globalScope]
    show Scope.ofDeclared (((c.documents.map _).filter _).flatMap _) = _
    rw [List.filter_map, List.flatMap_map]
    refine congrArg Scope.ofDeclared (List.flatMap_congr fun d _ ↦ ?_)
    rw [Document.namedClassifiers_stripped]
    rfl
  show ((c.unplaced.globalScope file).matching name).filterMap (c.unplaced.offer? site) =
    (((c.globalScope file).matching name).filterMap (c.offer? site)).map Related.unplaced
  rw [hglobal, List.map_filterMap]
  refine List.filterMap_congr fun e _ ↦ ?_
  rw [offer?, offer?, node?_stripped, document?_stripped]
  cases c.node? e.target with
  | none => rfl
  | some node =>
    have hadmits : site.admits (node.content.map Reference.unplaced) =
        site.admits node.content := by
      cases site <;> cases node.content <;> rfl
    dsimp only [Option.map_some]
    rw [Node.stripped, hadmits]
    split
    · cases c.document? e.target.file <;> rfl
    · rfl

end Catalog

namespace Snapshot

variable (s : Snapshot)

/-! ### Answers -/

/-- The rules by which questions are answered are the same. -/
theorem rules_unplaced : s.unplaced.rules = s.rules := by
  rw [rules, rules]
  congr 1
  funext q
  cases q with
  | resolution n => exact resolve_congr (s.candidates_stripped _ n) (s.catalog.text?_unplaced n)
  | dataType n => exact s.infer_stripped _ n
  | classifiers file => exact s.classifierScope_stripped _ file

/-- So every question has the answer that it had. -/
theorem answer_unplaced : s.unplaced.answer = s.answer := by
  funext q
  rw [answer, answer, rules_unplaced]

/-- And so does every inquiry, which is a few of these questions. -/
@[simp]
theorem evaluate_unplaced {α : Type} (i : Inquiry α) : s.unplaced.evaluate i = s.evaluate i := by
  rw [evaluate, evaluate, answer_unplaced]

@[simp]
theorem resolutionAt_unplaced (n : NodeId) : s.unplaced.resolutionAt n = s.resolutionAt n := by
  rw [resolutionAt, resolutionAt, answer_unplaced]

theorem typeAt?_unplaced (n : NodeId) : s.unplaced.typeAt? n = s.typeAt? n := by
  rw [typeAt?, typeAt?, answer_unplaced]

theorem candidatesAt_unplaced (n : NodeId) : s.unplaced.candidatesAt n = s.candidatesAt n := by
  rw [candidatesAt, candidatesAt, evaluate_unplaced, candidates_stripped]

/-! ### Findings of values -/

theorem name_unplaced (t : DataType) : t.name s.catalog.unplaced = t.name s.catalog := by
  cases t with
  | enumeration n | entity n =>
    show (s.catalog.unplaced.name? n).getD "" = (s.catalog.name? n).getD ""
    rw [Catalog.name?_stripped]
  | _ => rfl

/-- A finding on a node loses its range and nothing else. -/
@[simp]
theorem finding_unplaced (p : Problem) (n : NodeId) :
    s.unplaced.finding p n = (s.finding p n).unplaced := by
  rw [finding, finding, Problem.unplaced_report, catalog_stripped, Catalog.range_unplaced]
  rfl

/-- Values are compared by types and names, which have no range. -/
theorem mismatches_unplaced (member value : NodeId) :
    s.unplaced.mismatches member value = s.mismatches member value := by
  have hscalar (t : DataType) (v : NodeId) :
      s.unplaced.scalarMismatch? t v = s.scalarMismatch? t v := by
    simp only [scalarMismatch?, catalog_stripped, name_unplaced]
  have hfound (v : NodeId) : s.unplaced.foundName v = s.foundName v := by
    simp only [foundName, catalog_stripped, name_unplaced, Catalog.content?_stripped]
    refine congrArg _ (funext fun found? ↦ ?_)
    cases found? with
    | some found => rfl
    | none =>
      cases s.catalog.content? v with
      | none => rfl
      | some content =>
        cases content with
        | value x => cases x <;> rfl
        | _ => rfl
  simp only [mismatches, catalog_stripped, Catalog.member?_stripped, declaredType_stripped,
    Catalog.content?_stripped, Catalog.children_stripped, name_unplaced, hfound,
    fun t ↦ funext (hscalar t)]
  cases s.catalog.member? member with
  | none => rfl
  | some m =>
    dsimp only
    refine congrArg _ (funext fun expected? ↦ ?_)
    cases expected? with
    | none => rfl
    | some expected =>
      dsimp only
      cases s.catalog.content? value with
      | none => rfl
      | some content => cases m.cardinality.isArray <;> cases content <;> rfl

/-- What does not fit a type is reported at the same values. -/
theorem typeFindings_unplaced (member value : NodeId) :
    s.unplaced.typeFindings member value =
      List.map Diagnostic.unplaced <$> s.typeFindings member value := by
  simp only [typeFindings, mismatches_unplaced, finding_unplaced, map_bind, map_pure, List.map_map]
  rfl

/-- The elements of an array are counted. -/
theorem sizeFindings_unplaced (m : Member) (array : NodeId) :
    s.unplaced.sizeFindings m array = (s.sizeFindings m array).map Diagnostic.unplaced := by
  simp only [sizeFindings, catalog_stripped, settings_stripped, Catalog.children_stripped,
    finding_unplaced, apply_ite (List.map Diagnostic.unplaced)]
  rfl

/-- Elements repeat each other by what they are and not by where they stand. -/
theorem uniquenessFindings_unplaced (array : NodeId) :
    s.unplaced.uniquenessFindings array =
      List.map Diagnostic.unplaced <$> s.uniquenessFindings array := by
  have hkey (element : NodeId) : s.unplaced.elementKey? element = s.elementKey? element := by
    simp only [elementKey?, catalog_stripped, Catalog.content?_stripped]
    cases s.catalog.content? element with
    | none => rfl
    | some content =>
      cases content with
      | value v => cases v <;> rfl
      | _ => rfl
  simp only [uniquenessFindings, catalog_stripped, Catalog.children_stripped, hkey,
    finding_unplaced, map_bind, map_pure, List.map_map]
  rfl

theorem arrayFindings_unplaced (member value : NodeId) :
    s.unplaced.arrayFindings member value =
      List.map Diagnostic.unplaced <$> s.arrayFindings member value := by
  simp only [arrayFindings, catalog_stripped, Catalog.member?_stripped, Catalog.content?_stripped,
    uniquenessFindings_unplaced, sizeFindings_unplaced]
  cases s.catalog.member? member with
  | none => rfl
  | some m =>
    dsimp only
    cases s.catalog.content? value with
    | none => rfl
    | some content =>
      cases content with
      | array =>
        dsimp only [Option.map_some, Content.map]
        cases m.unique with
        | true => simp
        | false => simp
      | _ => rfl

theorem valueFindings_unplaced (member value : NodeId) :
    s.unplaced.valueFindings member value =
      List.map Diagnostic.unplaced <$> s.valueFindings member value := by
  simp only [valueFindings, typeFindings_unplaced, arrayFindings_unplaced, bind_map_left, map_bind,
    map_pure, List.map_append]

/-! ### Findings of members and instances -/

/-- What is wrong with the bounds of a member is a matter of the bounds, of its type and of how many
literals that has. -/
theorem cardinalityFindings_unplaced (member : NodeId) (m : Member) :
    s.unplaced.cardinalityFindings member m =
      List.map Diagnostic.unplaced <$> s.cardinalityFindings member m := by
  have hcount (n : NodeId) : s.unplaced.literalCount? n = s.literalCount? n := by
    simp only [literalCount?, catalog_stripped, Catalog.content?_stripped,
      Catalog.children_stripped]
    refine bind_target?_congr fun enumeration ↦ ?_
    cases s.catalog.content? enumeration with
    | none => rfl
    | some content => cases content <;> rfl
  have hfaults : s.unplaced.uniquenessFaults member m = s.uniquenessFaults member m := by
    simp only [uniquenessFaults, catalog_stripped, Catalog.memberType?_stripped, hcount]
    cases s.catalog.memberType? member with
    | none => rfl
    | some t =>
      obtain ⟨type, written⟩ := t
      cases written <;> rfl
  simp only [cardinalityFindings, hfaults, catalog_stripped, Catalog.range_unplaced, map_bind,
    map_pure, List.map_map, Function.comp_def, Problem.unplaced_report, List.map_nil]

theorem memberFindings_unplaced (n : NodeId) (m : Member) :
    s.unplaced.memberFindings n m = List.map Diagnostic.unplaced <$> s.memberFindings n m := by
  simp only [memberFindings, cardinalityFindings_unplaced, valueFindings_unplaced,
    catalog_stripped, Catalog.default?_stripped]
  cases s.catalog.default? n with
  | none => simp
  | some value => simp

/-- The missing members are listed in one message, in the order in which the entity declares
them. -/
theorem completenessFindings_unplaced (n : NodeId) (name : String) :
    s.unplaced.completenessFindings n name =
      List.map Diagnostic.unplaced <$> s.completenessFindings n name := by
  simp only [completenessFindings, catalog_stripped, Catalog.content?_stripped,
    Catalog.assignedNames_unplaced, Catalog.requiredNames_unplaced, Catalog.range_unplaced,
    map_bind]
  refine congrArg _ (funext fun entity? ↦ ?_)
  cases entity? with
  | none => rfl
  | some entity =>
    dsimp only
    cases s.catalog.content? entity with
    | none => rfl
    | some content =>
      cases content with
      | entity entityName id =>
        dsimp only [Option.map_some, Content.map]
        split
        · rfl
        · simp
      | _ => rfl

/-- A repeated assignment is reported with the first one, whose range is copied too. -/
theorem assignmentFindings_unplaced (n : NodeId) :
    s.unplaced.assignmentFindings n = List.map Diagnostic.unplaced <$> s.assignmentFindings n := by
  simp only [assignmentFindings, catalog_stripped, Catalog.children_stripped,
    Catalog.name?_stripped, Catalog.range_unplaced, map_bind, map_pure, List.map_map,
    Function.comp_def, Problem.unplaced_report]
  rfl

/-- Likewise two nodes of one name. -/
theorem nameFindings_unplaced (n : NodeId) :
    s.catalog.unplaced.nameFindings n = (s.catalog.nameFindings n).map Diagnostic.unplaced := by
  simp only [Catalog.nameFindings, Catalog.siblings?_unplaced, Catalog.name?_stripped,
    Catalog.range_unplaced]
  cases s.catalog.siblings? n with
  | none => rfl
  | some siblings =>
    dsimp only
    rw [List.map_map]
    simp only [Function.comp_def, Problem.unplaced_report]
    rfl

/-- Content by content: what is found in a node is what was found in it, without the ranges. -/
theorem contentFindings_unplaced (n : NodeId) :
    s.unplaced.contentFindings n = List.map Diagnostic.unplaced <$> s.contentFindings n := by
  simp only [contentFindings, catalog_stripped, Catalog.content?_stripped, nameFindings_unplaced,
    memberFindings_unplaced, completenessFindings_unplaced, assignmentFindings_unplaced,
    Catalog.assigned?_stripped, valueFindings_unplaced]
  cases s.catalog.content? n with
  | none => rfl
  | some content =>
    cases content with
    | instantiation name r =>
      dsimp only [Option.map_some, Content.map]
      simp
    | assignment r =>
      dsimp only [Option.map_some, Content.map]
      rw [map_bind]
      refine congrArg _ (funext fun member? ↦ ?_)
      cases member? with
      | none => rfl
      | some member => cases s.catalog.assigned? n <;> rfl
    | _ => rfl

/-! ### Findings of references -/

/-- What a reference comes to is the same, and what is related to it loses its range. -/
theorem referenceFindings_unplaced (n : NodeId) :
    s.unplaced.referenceFindings n = List.map Diagnostic.unplaced <$> s.referenceFindings n := by
  simp only [referenceFindings, catalog_stripped, settings_stripped, Catalog.content?_stripped,
    Catalog.declaredElsewhere_unplaced]
  cases s.catalog.content? n with
  | none => rfl
  | some content =>
    dsimp only [Option.map_some]
    rw [Content.reference?_map, Content.label_map]
    cases content.reference? with
    | none => rfl
    | some r =>
      obtain ⟨site, r⟩ := r
      dsimp only [Option.map_some]
      rw [map_bind]
      refine congrArg _ (funext fun resolution ↦ ?_)
      cases resolution with
      | found t => rfl
      | blocked => rfl
      | notFound =>
        simp only [map_pure, List.map_singleton, Problem.unplaced_report,
          apply_ite (List.map Related.unplaced)]
        rfl
      | ambiguous ts =>
        have hrelated : ts.map s.catalog.unplaced.asCandidate =
            (ts.map s.catalog.asCandidate).map Related.unplaced := by
          rw [List.map_map]
          exact List.map_congr_left fun t _ ↦ s.catalog.asCandidate_unplaced t
        dsimp only
        rw [hrelated, map_pure, List.map_singleton, Problem.unplaced_report]
        rfl

/-- **A check without ranges is the check, without its ranges.** -/
theorem check_unplaced (file : FileId) :
    s.unplaced.evaluate (s.unplaced.check file) =
      (s.evaluate (s.check file)).map Diagnostic.unplaced := by
  cases hd : s.catalog.document? file with
  | none =>
    have hd' : s.unplaced.catalog.document? file = none := by
      rw [catalog_stripped, Catalog.document?_stripped, hd]
      rfl
    simp only [check, hd, hd']
    rfl
  | some d =>
    have hd' : s.unplaced.catalog.document? file = some d.unplaced := by
      rw [catalog_stripped, Catalog.document?_stripped, hd]
      rfl
    rw [evaluate_check hd, evaluate_check hd', Document.nodes_stripped]
    simp only [evaluate_unplaced, referenceFindings_unplaced, contentFindings_unplaced,
      List.map_append, List.map_flatMap]
    simp only [evaluate, Query.eval_map]

end Snapshot

end Schemata
