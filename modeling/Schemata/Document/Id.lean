/-!
# Identities

A document is known by its file, a node by its place in the document, and a state of the loaded
documents by its generation.
-/

namespace Schemata

/-- A file, numbered from zero in the order of first sight. -/
structure FileId where
  index : Nat
  deriving DecidableEq, Repr, Hashable, Inhabited

/-- The place of a node in its document; the root has place zero. -/
abbrev LocalId := Nat

/-- A node of some document. -/
structure NodeId where
  file : FileId
  index : LocalId
  deriving DecidableEq, Repr, Hashable, Inhabited

/-- How many times the loaded documents have changed. -/
structure Generation where
  count : Nat
  deriving DecidableEq, Repr, Inhabited

namespace FileId

/-- The file as named in messages. -/
def text (f : FileId) : String := "doc#" ++ toString f.index

/-- The file as shown to a developer. -/
def debugText (f : FileId) : String := "FileId(" ++ toString f.index ++ ")"

end FileId

/-- A place as shown to a developer. -/
def LocalId.debugText (n : LocalId) : String := "LocalNodeId(" ++ toString n ++ ")"

namespace NodeId

/-- The node as shown to a developer. -/
def debugText (n : NodeId) : String :=
  "NodeId(" ++ n.file.debugText ++ ":" ++ toString n.index ++ ")"

/-- Nodes are ordered by file, then by place. -/
def compare (a b : NodeId) : Ordering :=
  (Ord.compare a.file.index b.file.index).then (Ord.compare a.index b.index)

/-- The node at another place of the same document. -/
def sibling (n : NodeId) (index : LocalId) : NodeId := ⟨n.file, index⟩

@[simp] theorem file_sibling (n : NodeId) (i : LocalId) : (n.sibling i).file = n.file := rfl

@[simp] theorem index_sibling (n : NodeId) (i : LocalId) : (n.sibling i).index = i := rfl

end NodeId

namespace Generation

def next (g : Generation) : Generation := ⟨g.count + 1⟩

/-- The generation as named in messages. -/
def text (g : Generation) : String := "gen" ++ toString g.count

/-- The generation as shown to a developer. -/
def debugText (g : Generation) : String := "Generation(" ++ toString g.count ++ ")"

end Generation

end Schemata
