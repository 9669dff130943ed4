import Schemata.Question
import Schemata.Snapshot

/-!
# Visibility

Which names can be used at a reference, and what a reference comes to. Each kind of site has its own
scope.

* An import sees every document by name, except those of its own name.
* An imported item sees the classifiers of the document that its import comes to.
* The type of a member sees the classifiers of its file: those that the file imports, under the
  alias if there is one, and then its own. An enumeration type sees only the enumerations among
  them, and a contained value only the entities.
* An instance sees the entities among them that have an external id, by that id.
* An assignment sees the members of the entity of its instance.
* A literal sees the literals of the enumeration that types the member whose value it belongs to.

A site has no scope when the scope rests on another reference that does not resolve.
-/

namespace Schemata

namespace Document

/-- The items of the imports of a document, with their aliases. -/
def importItems (d : Document) : List (LocalId × Option String) :=
  d.imports.flatMap fun clause ↦
    match d.content? clause with
    | some (.importClause _) =>
      (d.children clause).filterMap fun item ↦
        match d.content? item with
        | some (.importItem _ rename) => some (item, rename)
        | _ => none
    | _ => []

/-- The classifiers of a document by name, in order. -/
def namedClassifiers (d : Document) : List (String × NodeId) := d.named d.classifiers

theorem content?_of_mem_importItems {d : Document} {item : LocalId} {rename : Option String}
    (h : (item, rename) ∈ d.importItems) : ∃ r, d.content? item = some (.importItem r rename) := by
  simp only [importItems, List.mem_flatMap] at h
  obtain ⟨clause, -, h⟩ := h
  split at h
  · simp only [List.mem_filterMap] at h
    obtain ⟨a, -, h⟩ := h
    split at h
    · rename_i r rename' hc
      simp only [Option.some.injEq, Prod.mk.injEq] at h
      exact ⟨r, by rw [← h.1, hc, h.2]⟩
    · simp at h
  · simp at h

end Document

namespace Catalog

def isEntity (c : Catalog) (n : NodeId) : Bool :=
  match c.content? n with
  | some content => content.isEntity
  | none => false

def isEnumeration (c : Catalog) (n : NodeId) : Bool :=
  match c.content? n with
  | some content => content.isEnumeration
  | none => false

/-- The external id of an entity. -/
def externalId? (c : Catalog) (n : NodeId) : Option String :=
  match c.content? n with
  | some (.entity _ id) => id
  | _ => none

/-- Adds a document to those that an import can name in a document called `own`, unless it is called
so itself or its name is among them already. -/
def addDocument (own : String) (s : Scope) (d : Document) : Scope :=
  if d.name == own || s.names.any (· == d.name) then s else s.push d.name d.rootId

/-- The documents that an import can name in a document called `own`: of the documents that share a
name only the first, and none that is called `own`. -/
def documentScope (c : Catalog) (own : String) : Scope := c.documents.foldl (addDocument own) .empty

/-- The documents other than that of `file`, by name, each followed by its classifiers. -/
def globalScope (c : Catalog) (file : FileId) : Scope :=
  .ofDeclared <|
    (c.documents.filter (·.file != file)).flatMap fun d ↦ (d.name, d.rootId) :: d.namedClassifiers

/-- The member or the assignment whose value a node belongs to, if it belongs to one. -/
def valueOwner? (c : Catalog) (n : NodeId) : Option NodeId :=
  match c.document? n.file with
  | none => none
  | some d =>
    ((d.ancestors n.index).find? fun a ↦
      match d.content? a with
      | some (.member _) | some (.assignment _) => true
      | _ => false).map n.sibling

end Catalog

namespace Scope

/-- The entries that stand for entities with an external id, by that id. -/
def byExternalId (c : Catalog) (s : Scope) : Scope :=
  ⟨s.entries.filterMap fun e ↦ (c.externalId? e.target).map fun id ↦ { e with name := id }⟩

end Scope

namespace Snapshot

open Inquiry

variable (s : Snapshot)

/-- The entries that the imports of a document bring to it. An item that does not resolve brings
none. -/
def importedEntries (d : Document) : Inquiry (List ScopeEntry) :=
  Query.choose d.importItems fun (item, rename) ↦ do
    let some target ← target? (d.id item) | return none
    return (rename.or (s.catalog.name? target)).map (⟨·, target, true⟩)

/-- The classifiers that can be named in a file: the imported ones and then its own. -/
def classifierScope (file : FileId) : Inquiry Scope := do
  let some d := s.catalog.document? file | return .empty
  let imported ← s.importedEntries d
  return ⟨imported ++ (Scope.ofDeclared d.namedClassifiers).entries⟩

/-- The classifiers of the document that the import of an item comes to. -/
def exportScope? (item : NodeId) : Inquiry (Option Scope) := do
  let some clause := s.catalog.parent? item | return none
  let some source ← target? clause | return none
  return (s.catalog.document? source.file).map fun d ↦ .ofDeclared d.namedClassifiers

/-- The members of the entity of the instance that an assignment belongs to. -/
def memberScope? (assignment : NodeId) : Inquiry (Option Scope) := do
  let some owner := s.catalog.parent? assignment | return none
  let some entity ← target? owner | return none
  let some (.entity ..) := s.catalog.content? entity | return none
  return some (.ofDeclared (s.catalog.namedChildren entity))

/-- The member for which a value is meant: the one whose default it belongs to, or the one to which
it is assigned. -/
def memberOfValue? (value : NodeId) : Inquiry (Option NodeId) := do
  let some owner := s.catalog.valueOwner? value | return none
  match s.catalog.content? owner with
  | some (.assignment _) => target? owner
  | _ => return some owner

/-- The literals of the enumeration that types the member for which a value is meant. A member of
another type has no literals, which is different from having no scope. -/
def literalScope? (value : NodeId) : Inquiry (Option Scope) := do
  let some owner ← s.memberOfValue? value | return none
  let some (.member _) := s.catalog.content? owner | return none
  let some (type, .enumeration _) := s.catalog.memberType? owner | return some .empty
  let some enumeration ← target? type | return none
  let some (.enumeration _) := s.catalog.content? enumeration | return none
  return some (.ofDeclared (s.catalog.namedChildren enumeration))

/-- The names that can be used at the reference of a node. -/
def candidates (n : NodeId) : Inquiry (Option Scope) := do
  let some (site, _) := (s.catalog.content? n).bind (·.reference?) | return none
  match site with
  | .importSource =>
    return (s.catalog.document? n.file).map fun d ↦ s.catalog.documentScope d.name
  | .importItem => s.exportScope? n
  | .entityType => some <$> classifiers n.file
  | .enumerationType =>
    return some ((← classifiers n.file).filter fun e ↦ s.catalog.isEnumeration e.target)
  | .containedValue =>
    return some ((← classifiers n.file).filter fun e ↦ s.catalog.isEntity e.target)
  | .instanceEntity => return some ((← classifiers n.file).byExternalId s.catalog)
  | .assignedMember => s.memberScope? n
  | .literalValue => s.literalScope? n

/-- What the reference at a node comes to. -/
def resolve (n : NodeId) : Inquiry Resolution := do
  let some (_, reference) := (s.catalog.content? n).bind (·.reference?) | return .blocked
  let some scope ← s.candidates n | return .blocked
  return scope.lookup reference.text

end Snapshot

end Schemata
