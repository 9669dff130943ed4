import Schemata.Document.Basic

/-!
# Catalogs

A catalog holds the loaded documents, one for each file, in the order in which their files were
first loaded, and counts its changes. That order decides between documents of one name, and it is
the order of candidates from several documents.
-/

namespace Schemata

/-- The loaded documents. -/
structure Catalog where
  generation : Generation
  documents : List Document
  deriving Repr

namespace Catalog

/-- No document, before any change. -/
def empty : Catalog := ⟨⟨0⟩, []⟩

/-- Replaces the document of a file where it stands. -/
def replace (d : Document) (ds : List Document) : List Document :=
  ds.map fun e ↦ if e.file = d.file then d else e

/-- Loads a document: in place of the one of its file, if there is one, or after all others. -/
def insert (c : Catalog) (d : Document) : Catalog :=
  { generation := c.generation.next
    documents :=
      if c.documents.any (·.file == d.file) then replace d c.documents else c.documents ++ [d] }

/-- Unloads the document of a file. A file that has none counts as a change too. -/
def erase (c : Catalog) (file : FileId) : Catalog :=
  { generation := c.generation.next
    documents := c.documents.filter (·.file != file) }

/-- Loads some documents, one after the other. -/
def ofDocuments (ds : List Document) : Catalog := ds.foldl insert empty

/-- The document of a file. -/
def document? (c : Catalog) (file : FileId) : Option Document :=
  c.documents.find? (·.file == file)

/-- Notes the file of a document under its name, unless the name is taken. -/
def addName (index : List (String × FileId)) (d : Document) : List (String × FileId) :=
  if (index.lookup d.name).isSome then index else index ++ [(d.name, d.file)]

/-- The index of names: under each name the file of the first document that has it. -/
def nameIndex (c : Catalog) : List (String × FileId) := c.documents.foldl addName []

/-- The document with a name, of several the one that the index of names tells. -/
def documentNamed? (c : Catalog) (name : String) : Option Document :=
  (c.nameIndex.lookup name).bind c.document?

def contains (c : Catalog) (file : FileId) : Bool := (c.document? file).isSome

/-- The files of the loaded documents, in order. -/
def files (c : Catalog) : List FileId := c.documents.map (·.file)

/-- The number of loaded documents. -/
def size (c : Catalog) : Nat := c.documents.length

def isEmpty (c : Catalog) : Bool := c.size == 0

/-! ### Nodes -/

def node? (c : Catalog) (n : NodeId) : Option Node :=
  (c.document? n.file).bind (·.node? n.index)

def content? (c : Catalog) (n : NodeId) : Option (Content Reference) :=
  (c.node? n).map (·.content)

/-- The name that a node declares. -/
def name? (c : Catalog) (n : NodeId) : Option String := (c.node? n).bind (·.name?)

def parent? (c : Catalog) (n : NodeId) : Option NodeId :=
  ((c.node? n).bind (·.parent)).map n.sibling

/-- The children of a node. -/
def children (c : Catalog) (n : NodeId) : List NodeId :=
  (((c.node? n).map (·.children)).getD []).map n.sibling

/-- The children of a node that declare a name, with their names. -/
def namedChildren (c : Catalog) (n : NodeId) : List (String × NodeId) :=
  (c.children n).filterMap fun child ↦ (c.name? child).map (·, child)

/-- The range of a node, empty if there is no such node. -/
def range (c : Catalog) (n : NodeId) : Range := ((c.node? n).map (·.range)).getD .empty

/-- The names from the root down to a node, joined by full stops. -/
def qualifiedName (c : Catalog) (n : NodeId) : String :=
  match c.document? n.file with
  | none => ""
  | some d => ".".intercalate ((n.index :: d.ancestors n.index).reverse.filterMap d.name?)

@[simp] theorem files_empty : empty.files = [] := rfl

theorem document?_empty (file : FileId) : empty.document? file = none := rfl

/-- A document is found under its own file. -/
theorem document?_eq_some {c : Catalog} {f : FileId} {d : Document} (h : c.document? f = some d) :
    d.file = f := by
  have := List.find?_some h
  simpa using this

theorem content?_id {c : Catalog} {f : FileId} {d : Document} (h : c.document? f = some d)
    (n : LocalId) : c.content? (d.id n) = d.content? n := by
  simp [Catalog.content?, Catalog.node?, Document.content?, Document.id, document?_eq_some h, h]

end Catalog

end Schemata
