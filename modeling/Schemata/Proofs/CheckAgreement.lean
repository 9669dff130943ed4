import Schemata.Proofs.Agreement
import Schemata.Proofs.Findings
import Schemata.Proofs.Repeats

/-!
# Checks of snapshots that agree

Where two snapshots agree on some files, the check of each of these files finds the same in both
(`Snapshot.AgreeOn.forall₂_check`). One kind of finding is left to the caller: a reference that
comes to nothing points to declarations of its name in all other documents, and so to nodes about
which nothing is assumed. All other findings rest on answers and on nodes of these files, inquiry by
inquiry.
-/

namespace Schemata

/-! ### Catalogs with the same document of a file -/

namespace Catalog

/-- How a declaration of another document is related to a reference, if it would fit there. -/
def offer? (c : Catalog) (site : Site) (e : ScopeEntry) : Option Related :=
  match c.node? e.target with
  | none => none
  | some node =>
    if site.admits node.content then
      let document := ((c.document? e.target.file).map (·.name)).getD ""
      some ⟨e.target, node.range, "'" ++ e.name ++ "' is declared in module '" ++ document ++ "'"⟩
    else none

/-- What a document offers to a reference of a text. -/
def offers (c : Catalog) (site : Site) (name : String) (d : Document) : List Related :=
  ((Scope.ofDeclared ((d.name, d.rootId) :: d.namedClassifiers)).matching name).filterMap
    (c.offer? site)

/-- What is declared elsewhere is what the other documents offer, document by document. -/
theorem declaredElsewhere_eq (c : Catalog) (file : FileId) (site : Site) (name : String) :
    c.declaredElsewhere file site name =
      (c.documents.filter (·.file != file)).flatMap (c.offers site name) := by
  show ((c.globalScope file).matching name).filterMap (c.offer? site) = _
  rw [Scope.matching, globalScope, Scope.ofDeclared, List.map_flatMap, List.filter_flatMap,
    List.filterMap_flatMap]
  rfl

variable {c c' : Catalog} {site : Site} {name : String} {d : Document}

/-- What is offered points to the declaration itself. -/
theorem node_of_offer? {e : ScopeEntry} {x : Related} (h : c.offer? site e = some x) :
    x.node = e.target := by
  rw [offer?] at h
  split at h
  · cases h
  · split at h
    · rw [← Option.some.inj h]
    · cases h

/-- The entries of a document, its own name included, are nodes of it. -/
theorem file_of_mem_matching {e : ScopeEntry}
    (h : e ∈ (Scope.ofDeclared ((d.name, d.rootId) :: d.namedClassifiers)).matching name) :
    e.target.file = d.file := by
  obtain ⟨y, hy, rfl⟩ := List.mem_map.1 (Scope.mem_matching_iff.1 h).1
  rcases List.mem_cons.1 hy with rfl | hy
  · rfl
  · exact Document.file_of_mem_namedClassifiers hy

/-- What a document offers are nodes of it. -/
theorem file_of_mem_offers {x : Related} (h : x ∈ c.offers site name d) : x.node.file = d.file := by
  obtain ⟨e, he, hx⟩ := List.mem_filterMap.1 h
  rw [node_of_offer? hx]
  exact file_of_mem_matching he

/-- What a document offers depends only on that document. -/
theorem offers_congr (h : c'.document? d.file = c.document? d.file) :
    c'.offers site name d = c.offers site name d := by
  refine List.filterMap_congr fun e he ↦ ?_
  have h : c'.document? e.target.file = c.document? e.target.file := by
    rw [file_of_mem_matching he, h]
  rw [offer?, offer?, node?_congr h, h]

variable {n : NodeId} (h : c'.document? n.file = c.document? n.file)
include h

/-- The names that must differ beside a node are those of its own children, or of its own
document. -/
theorem siblings?_congr : c'.siblings? n = c.siblings? n := by
  rw [siblings?, siblings?, node?_congr h, children_congr h, h]

/-- So the repeats among them are the same as well. -/
theorem nameFindings_congr : c'.nameFindings n = c.nameFindings n := by
  rw [nameFindings, nameFindings, siblings?_congr h]
  cases hs : c.siblings? n with
  | none => rfl
  | some siblings =>
    obtain ⟨places, what⟩ := siblings
    have hplace : ∀ u ∈ places, c'.document? u.file = c.document? u.file := fun u hu ↦
      file_of_mem_siblings hs hu ▸ h
    have hnames : (places.filterMap fun n ↦ (c'.name? n).map fun name ↦ (name, (name, n))) =
        places.filterMap fun n ↦ (c.name? n).map fun name ↦ (name, (name, n)) :=
      List.filterMap_congr fun u hu ↦ by rw [name?_congr (hplace u hu)]
    -- what is told of a repeat are two of these places
    have hrange : ∀ x ∈ (places.filterMap fun n ↦
        (c.name? n).map fun name ↦ (name, (name, n))).map Prod.snd, c'.range x.2 = c.range x.2 := by
      intro x hx
      obtain ⟨y, hy, rfl⟩ := List.mem_map.1 hx
      obtain ⟨u, hu, heq⟩ := List.mem_filterMap.1 hy
      obtain ⟨name, -, rfl⟩ := Option.map_eq_some_iff.1 heq
      exact range_congr (hplace u hu)
    dsimp only
    rw [hnames]
    refine map_repeats_congr fun x hx y hy ↦ ?_
    rw [hrange x hx, hrange y hy]

theorem assignedNames_congr : c'.assignedNames n = c.assignedNames n := by
  rw [assignedNames, assignedNames, children_congr h]
  refine List.filterMap_congr fun a ha ↦ ?_
  rw [content?_congr (n := a) (file_of_mem_children ha ▸ h)]

/-- The members of an entity and their defaults stand in the file of the entity. -/
theorem requiredNames_congr : c'.requiredNames n = c.requiredNames n := by
  rw [requiredNames, requiredNames, children_congr h]
  refine List.filterMap_congr fun a ha ↦ ?_
  have ha : c'.document? a.file = c.document? a.file := file_of_mem_children ha ▸ h
  rw [member?_congr ha, default?_congr ha]

end Catalog

/-- Whether two results are the same. -/
abbrev Same {α : Type} : α → α → Prop := SameWith fun _ ↦ True

/-- What is related to a reference of a text that comes to nothing. -/
def Snapshot.related (s : Snapshot) (file : FileId) (site : Site) (text : String) : List Related :=
  if s.settings.relatedCandidates then s.catalog.declaredElsewhere file site text else []

namespace Snapshot.AgreeOn

open Inquiry

variable {p : FileId → Prop} {s s' : Snapshot} (h : AgreeOn p s s')
  (hsettings : s'.settings = s.settings)
include h

/-- A type that stays in these files has the same name in both snapshots. -/
theorem typeName_eq {t : DataType} (ht : t.StaysIn p) : t.name s'.catalog = t.name s.catalog := by
  cases t with
  | enumeration n | entity n =>
    show (s'.catalog.name? n).getD "" = (s.catalog.name? n).getD ""
    rw [Catalog.name?_congr (h.document? _ ht)]
  | _ => rfl

/-- A finding on a node of these files is the same in both: only its range is looked up. -/
theorem finding_eq {n : NodeId} (hn : p n.file) (problem : Problem) :
    s'.finding problem n = s.finding problem n := by
  rw [finding, finding, Catalog.range_congr (h.document? _ hn)]

/-! ### Values -/

omit h in
theorem inStep_dataType {n : NodeId} (hn : p n.file) :
    Snapshot.InStep p (SameType p) (dataType n) (dataType n) :=
  Query.InStep.question (q := Question.dataType n) hn

/-- Whether a value fits a type is asked of the value alone, so what does not fit is a value of
these files. -/
theorem inStep_scalarMismatch? {expected : DataType} (hexpected : expected.StaysIn p)
    {value : NodeId} (hvalue : p value.file) :
    Snapshot.InStep p (SameWith fun m? ↦ ∀ m ∈ m?, p m.value.file)
      (s.scalarMismatch? expected value)
      (s'.scalarMismatch? expected value) := by
  refine (inStep_dataType hvalue).bind_option .pure_none fun found hfound ↦ ?_
  dsimp only
  rw [h.typeName_eq hexpected, h.typeName_eq hfound]
  split
  · exact .pure_none
  · exact .pure_some hvalue

theorem inStep_foundName {value : NodeId} (hvalue : p value.file) :
    Snapshot.InStep p Same (s.foundName value) (s'.foundName value) := by
  refine (inStep_dataType hvalue).bind_same fun found? hfound ↦ ?_
  cases found? with
  | none =>
    dsimp only
    rw [Catalog.content?_congr (h.document? _ hvalue)]
    split <;> exact .pure ⟨rfl, trivial⟩
  | some found =>
    dsimp only
    rw [h.typeName_eq (hfound found rfl)]
    exact .pure ⟨rfl, trivial⟩

/-- A value is compared with the type of the member. Both stand in these files, though not always in
one and the same file, because a member is what an assignment comes to. -/
theorem inStep_mismatches {member value : NodeId} (hmember : p member.file)
    (hvalue : p value.file) :
    Snapshot.InStep p (SameWith fun ms ↦ ∀ m ∈ ms, p m.value.file) (s.mismatches member value)
      (s'.mismatches member value) := by
  rw [mismatches, mismatches, Catalog.member?_congr (h.document? _ hmember)]
  split
  · rename_i m _
    refine (h.inStep_declaredType hmember).bind_option (.pure ⟨rfl, by simp⟩)
      fun expected hexpected ↦ ?_
    dsimp only
    rw [Catalog.content?_congr (h.document? _ hvalue), h.typeName_eq hexpected,
      Catalog.children_congr (h.document? _ hvalue)]
    split
    · split
      · exact .pure ⟨rfl, by simpa using hvalue⟩
      · refine (h.inStep_scalarMismatch? hexpected hvalue).bind_same fun m? hm ↦ ?_
        exact .pure ⟨rfl, fun m hmem ↦ hm m (Option.mem_toList.1 hmem)⟩
      · refine Query.InStep.choose fun element helement ↦ ?_
        exact h.inStep_scalarMismatch? hexpected (Catalog.file_of_mem_children helement ▸ hvalue)
      · refine (h.inStep_foundName hvalue).bind_same fun found _ ↦ ?_
        exact .pure ⟨rfl, by simpa using hvalue⟩
    · exact .pure ⟨rfl, by simp⟩
  · exact .pure ⟨rfl, by simp⟩

theorem inStep_typeFindings {member value : NodeId} (hmember : p member.file)
    (hvalue : p value.file) :
    Snapshot.InStep p Same (s.typeFindings member value) (s'.typeFindings member value) := by
  refine (h.inStep_mismatches hmember hvalue).bind_same fun ms hms ↦ .pure ⟨?_, trivial⟩
  exact List.map_congr_left fun m hm ↦ h.finding_eq (hms m hm) _

/-- A reference in an array is told apart by its target, every other value by itself. -/
theorem inStep_elementKey? {element : NodeId} (helement : p element.file) :
    Snapshot.InStep p Same (s.elementKey? element) (s'.elementKey? element) := by
  rw [elementKey?, elementKey?, Catalog.content?_congr (h.document? _ helement)]
  split
  · split
    all_goals first
      | exact .pure ⟨rfl, trivial⟩
      | exact (inStep_target? helement).bind_same fun t? _ ↦ .pure ⟨rfl, trivial⟩
  · exact .pure ⟨rfl, trivial⟩

/-- The keys of the elements are the same, and so are the repeats among them. -/
theorem inStep_uniquenessFindings {array : NodeId} (harray : p array.file) :
    Snapshot.InStep p Same (s.uniquenessFindings array) (s'.uniquenessFindings array) := by
  rw [uniquenessFindings, uniquenessFindings, Catalog.children_congr (h.document? _ harray)]
  have hkeyed : Snapshot.InStep p
      (SameWith fun keyed ↦ ∀ x ∈ keyed, p x.2.file)
      (Query.choose (s.catalog.children array) fun element ↦ do
        return (← s.elementKey? element).map (·, element))
      (Query.choose (s.catalog.children array) fun element ↦ do
        return (← s'.elementKey? element).map (·, element)) := by
    refine Query.InStep.choose fun element helement ↦ ?_
    have hfile : p element.file := Catalog.file_of_mem_children helement ▸ harray
    refine (h.inStep_elementKey? hfile).bind_same fun key? _ ↦ .pure ⟨rfl, fun x hx ↦ ?_⟩
    obtain ⟨key, -, rfl⟩ := Option.map_eq_some_iff.1 hx
    exact hfile
  refine hkeyed.bind_same fun keyed hfiles ↦ .pure ⟨?_, trivial⟩
  refine map_repeats_congr fun x hx _ _ ↦ ?_
  obtain ⟨y, hy, rfl⟩ := List.mem_map.1 hx
  exact h.finding_eq (hfiles y hy) _

include hsettings

/-- The size of an array is counted at the value, and no question is asked. -/
theorem sizeFindings_eq (m : Member) {array : NodeId} (harray : p array.file) :
    s'.sizeFindings m array = s.sizeFindings m array := by
  simp only [sizeFindings, hsettings, Catalog.children_congr (h.document? _ harray),
    h.finding_eq harray]

/-- What is found in an array is its size, and the repeats if it has to be free of them. -/
theorem inStep_arrayFindings {member value : NodeId} (hmember : p member.file)
    (hvalue : p value.file) :
    Snapshot.InStep p Same (s.arrayFindings member value) (s'.arrayFindings member value) := by
  rw [arrayFindings, arrayFindings, Catalog.member?_congr (h.document? _ hmember)]
  split
  · rename_i m _
    rw [Catalog.content?_congr (h.document? _ hvalue), h.sizeFindings_eq hsettings m hvalue]
    split
    · split
      · refine (h.inStep_uniquenessFindings hvalue).bind_same fun repeated _ ↦ ?_
        exact .pure ⟨rfl, trivial⟩
      · exact .pure ⟨rfl, trivial⟩
    · exact .pure ⟨rfl, trivial⟩
  · exact .pure ⟨rfl, trivial⟩

theorem inStep_valueFindings {member value : NodeId} (hmember : p member.file)
    (hvalue : p value.file) :
    Snapshot.InStep p Same (s.valueFindings member value) (s'.valueFindings member value) := by
  refine (h.inStep_typeFindings hmember hvalue).bind_same fun types _ ↦ ?_
  refine (h.inStep_arrayFindings hsettings hmember hvalue).bind_same fun arrays _ ↦ ?_
  exact .pure ⟨rfl, trivial⟩

/-! ### Members and instances -/

omit hsettings in
/-- The literals of an enumeration are counted in the file of the enumeration. -/
theorem inStep_literalCount? {n : NodeId} (hn : p n.file) :
    Snapshot.InStep p Same (s.literalCount? n) (s'.literalCount? n) := by
  refine (inStep_target? hn).bind_option (.pure ⟨rfl, trivial⟩) fun enumeration hfile ↦ ?_
  dsimp only
  rw [Catalog.content?_congr (h.document? _ hfile), Catalog.children_congr (h.document? _ hfile)]
  split <;> exact .pure ⟨rfl, trivial⟩

omit hsettings in
/-- The upper bound of a member without repeats is compared with the number of literals of its
type. -/
theorem inStep_uniquenessFaults {n : NodeId} (hn : p n.file) (m : Member) :
    Snapshot.InStep p Same (s.uniquenessFaults n m) (s'.uniquenessFaults n m) := by
  rw [uniquenessFaults, uniquenessFaults, Catalog.memberType?_congr (h.document? _ hn)]
  split
  · exact .pure ⟨rfl, trivial⟩
  · split
    · split
      · exact .pure ⟨rfl, trivial⟩
      · rename_i type _ htype
        have hfile : p type.file := Catalog.file_of_memberType? htype ▸ hn
        refine (h.inStep_literalCount? hfile).bind_same fun count? _ ↦ ?_
        cases count? <;> exact .pure ⟨rfl, trivial⟩
      · exact .pure ⟨rfl, trivial⟩
    · exact .pure ⟨rfl, trivial⟩

omit hsettings in
theorem inStep_cardinalityFindings {n : NodeId} (hn : p n.file) (m : Member) :
    Snapshot.InStep p Same (s.cardinalityFindings n m) (s'.cardinalityFindings n m) := by
  rw [cardinalityFindings, cardinalityFindings, Catalog.range_congr (h.document? _ hn)]
  exact (h.inStep_uniquenessFaults hn m).bind_same fun faults _ ↦ .pure ⟨rfl, trivial⟩

/-- What is found at a member are its bounds, and what is found in its default. -/
theorem inStep_memberFindings {n : NodeId} (hn : p n.file) (m : Member) :
    Snapshot.InStep p Same (s.memberFindings n m) (s'.memberFindings n m) := by
  refine (h.inStep_cardinalityFindings hn m).bind_same fun bounds _ ↦ ?_
  rw [Catalog.default?_congr (h.document? _ hn)]
  cases hvalue : s.catalog.default? n with
  | none => exact .pure ⟨rfl, trivial⟩
  | some value =>
    have hfile : p value.file := by
      obtain ⟨i, -, rfl⟩ := Option.map_eq_some_iff.1 hvalue
      exact hn
    refine (h.inStep_valueFindings hsettings hn hfile).bind_same fun values _ ↦ ?_
    exact .pure ⟨rfl, trivial⟩

omit hsettings in
/-- The members that are missing are those of the entity, less those that the instance assigns. -/
theorem inStep_completenessFindings {n : NodeId} (hn : p n.file) (name : String) :
    Snapshot.InStep p Same (s.completenessFindings n name) (s'.completenessFindings n name) := by
  refine (inStep_target? hn).bind_option (.pure ⟨rfl, trivial⟩) fun entity hfile ↦ ?_
  dsimp only
  rw [Catalog.content?_congr (h.document? _ hfile),
    Catalog.assignedNames_congr (h.document? _ hn),
    Catalog.requiredNames_congr (h.document? _ hfile), Catalog.range_congr (h.document? _ hn)]
  split
  · split <;> exact .pure ⟨rfl, trivial⟩
  · exact .pure ⟨rfl, trivial⟩

omit hsettings in
/-- Two assignments repeat a member if they come to the same node, wherever that node is. -/
theorem inStep_assignmentFindings {n : NodeId} (hn : p n.file) :
    Snapshot.InStep p Same (s.assignmentFindings n) (s'.assignmentFindings n) := by
  rw [assignmentFindings, assignmentFindings, Catalog.children_congr (h.document? _ hn)]
  have hbound : Snapshot.InStep p (SameWith fun bound ↦ ∀ x ∈ bound, p x.2.1.file)
      (Query.choose (s.catalog.children n) fun a ↦ do
        return (← target? a).map fun member ↦ (member, (a, (s.catalog.name? member).getD "")))
      (Query.choose (s.catalog.children n) fun a ↦ do
        return (← target? a).map fun member ↦
          (member, (a, (s'.catalog.name? member).getD ""))) := by
    refine Query.InStep.choose fun a ha ↦ ?_
    have hfile : p a.file := Catalog.file_of_mem_children ha ▸ hn
    refine (inStep_target? hfile).bind_option .pure_none fun member hmember ↦ ?_
    rw [Option.map_some, Option.map_some, Catalog.name?_congr (h.document? _ hmember)]
    exact .pure_some hfile
  refine hbound.bind_same fun bound hfiles ↦ .pure ⟨?_, trivial⟩
  have hrange : ∀ x ∈ bound.map Prod.snd, s'.catalog.range x.1 = s.catalog.range x.1 := by
    intro x hx
    obtain ⟨y, hy, rfl⟩ := List.mem_map.1 hx
    exact Catalog.range_congr (h.document? _ (hfiles y hy))
  exact map_repeats_congr fun x hx y hy ↦ by simp only [hrange x hx, hrange y hy]

/-- Content by content: every finding that is not about a reference is the same in both
snapshots. -/
theorem inStep_contentFindings {n : NodeId} (hn : p n.file) :
    Snapshot.InStep p Same (s.contentFindings n) (s'.contentFindings n) := by
  rw [contentFindings, contentFindings, Catalog.content?_congr (h.document? _ hn),
    Catalog.nameFindings_congr (h.document? _ hn)]
  split
  · exact .pure ⟨rfl, trivial⟩
  · exact .pure ⟨rfl, trivial⟩
  · exact .pure ⟨rfl, trivial⟩
  · exact h.inStep_memberFindings hsettings hn _
  · refine (h.inStep_completenessFindings hn _).bind_same fun missing _ ↦ ?_
    refine (h.inStep_assignmentFindings hn).bind_same fun repeated _ ↦ ?_
    exact .pure ⟨rfl, trivial⟩
  · refine (inStep_target? hn).bind_option (.pure ⟨rfl, trivial⟩) fun member hmember ↦ ?_
    dsimp only
    rw [Catalog.assigned?_congr (h.document? _ hn)]
    split
    · rename_i value hvalue
      have hfile : p value.file := by
        obtain ⟨i, -, rfl⟩ := Option.map_eq_some_iff.1 hvalue
        exact hn
      exact h.inStep_valueFindings hsettings hmember hfile
    · exact .pure ⟨rfl, trivial⟩
  · exact .pure ⟨rfl, trivial⟩

/-! ### References -/

omit hsettings in
/-- A target of these files is listed as a candidate in the same way. -/
theorem asCandidate_eq {t : NodeId} (ht : p t.file) :
    s'.catalog.asCandidate t = s.catalog.asCandidate t := by
  rw [Catalog.asCandidate, Catalog.asCandidate, Catalog.range_congr (h.document? _ ht),
    Catalog.qualifiedName_congr (h.document? _ ht)]

variable {D : Diagnostic → Diagnostic → Prop}
  (hrefl : ∀ x : Diagnostic, x.code ≠ some "linking-error" → D x x)
  (hunresolved : ∀ failure n range site text, p n.file →
    D ((Problem.unresolved failure).report n range (s.related n.file site text))
      ((Problem.unresolved failure).report n range (s'.related n.file site text)))
include hrefl hunresolved

/-- A reference that is ambiguous lists targets of these files, so it is reported in the same way.
Only one that comes to nothing is left to the relation `D`. -/
theorem inStep_referenceFindings {n : NodeId} (hn : p n.file) :
    Snapshot.InStep p (List.Forall₂ D) (s.referenceFindings n) (s'.referenceFindings n) := by
  rw [referenceFindings, referenceFindings, Catalog.content?_congr (h.document? _ hn)]
  split
  · rename_i content _
    split
    · rename_i site r _
      refine Query.InStep.bind_same (Query.InStep.question (q := Question.resolution n) hn)
        fun resolution hresolution ↦ ?_
      cases resolution with
      | found t => exact .pure .nil
      | blocked => exact .pure .nil
      | notFound => exact .pure (.cons (hunresolved _ n r.range site r.text hn) .nil)
      | ambiguous ts =>
        have hrelated : ts.map s'.catalog.asCandidate = ts.map s.catalog.asCandidate :=
          List.map_congr_left fun t ht ↦ h.asCandidate_eq (hresolution t ht)
        dsimp only
        rw [hrelated, hsettings]
        exact .pure (.cons (hrefl _ (by simp [Problem.report, Problem.code])) .nil)
    · exact .pure .nil
  · exact .pure .nil

/-! ### Documents -/

/-- **The check of a file finds the same in snapshots that agree on it**, up to what differs in
references that come to nothing. -/
theorem forall₂_check {file : FileId} (hfile : p file) :
    List.Forall₂ D (s.evaluate (s.check file)) (s'.evaluate (s'.check file)) := by
  cases hd : s.catalog.document? file with
  | none =>
    have hd' : s'.catalog.document? file = none := (h.document? file hfile).trans hd
    simp only [check, hd, hd', Snapshot.evaluate]
    exact .nil
  | some d =>
    have hd' : s'.catalog.document? file = some d := (h.document? file hfile).trans hd
    have hnodes : ∀ n ∈ d.nodes, p n.file := by
      intro n hn
      obtain ⟨i, -, rfl⟩ := List.mem_map.1 hn
      show p d.file
      rw [Catalog.document?_eq_some hd]
      exact hfile
    have hreferences := h.evaluate (Query.InStep.collect fun n hn ↦
      h.inStep_referenceFindings hsettings hrefl hunresolved (hnodes n hn))
    have hcontents : (d.nodes.flatMap fun n ↦ s'.evaluate (s'.contentFindings n)) =
        d.nodes.flatMap fun n ↦ s.evaluate (s.contentFindings n) := by
      rw [List.flatMap_def, List.flatMap_def]
      exact congrArg _ (List.map_congr_left fun n hn ↦
        (h.evaluate (h.inStep_contentFindings hsettings (hnodes n hn))).1)
    simp only [Snapshot.evaluate, Query.eval_collect] at hreferences
    rw [evaluate_check hd, evaluate_check hd', hcontents]
    -- what is found in contents is the same, and no reference that comes to nothing
    refine List.rel_append hreferences (List.forall₂_same.2 fun x hx ↦ hrefl x fun hcode ↦ ?_)
    obtain ⟨n, -, hx⟩ := List.mem_flatMap.1 hx
    have hlinking := isLinking_of_mem_contentFindings hx
    simp [Diagnostic.isLinking, hcode] at hlinking

end Snapshot.AgreeOn

end Schemata
