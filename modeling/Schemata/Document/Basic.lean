import Schemata.Document.Node

/-!
# Documents

A document is the tree of what one file declares. Its nodes have places: the root has place zero and
the others follow in the order in which they were declared. The root is not stored as a node. Its
name, its imports and its classifiers are fields, so that a document always has them, and `node?`
shows the root as a node like any other.

The order of the tree, `preorder`, is not the order of the places: the root has its imports before
its classifiers, however they were declared.
-/

namespace Schemata

/-- The tree of one file. -/
structure Document where
  file : FileId
  name : String
  imports : List LocalId
  classifiers : List LocalId
  rootRange : Range
  /-- The nodes after the root. -/
  body : List Node
  deriving Repr, BEq

namespace Document

/-- The root as a node. -/
def root (d : Document) : Node :=
  ⟨.root d.name, none, d.imports ++ d.classifiers, d.rootRange⟩

/-- The node at a place. -/
def node? (d : Document) : LocalId → Option Node
  | 0 => some d.root
  | n + 1 => d.body[n]?

/-- The number of nodes. -/
def size (d : Document) : Nat := d.body.length + 1

/-- The identity of the node at a place. -/
def id (d : Document) (n : LocalId) : NodeId := ⟨d.file, n⟩

/-- The identity of the root. -/
def rootId (d : Document) : NodeId := d.id 0

def content? (d : Document) (n : LocalId) : Option (Content Reference) :=
  (d.node? n).map (·.content)

/-- The name that the node at a place declares. -/
def name? (d : Document) (n : LocalId) : Option String := (d.node? n).bind (·.name?)

def parent? (d : Document) (n : LocalId) : Option LocalId := (d.node? n).bind (·.parent)

def children (d : Document) (n : LocalId) : List LocalId :=
  ((d.node? n).map (·.children)).getD []

@[simp] theorem node?_zero (d : Document) : d.node? 0 = some d.root := rfl

@[simp] theorem node?_succ (d : Document) (n : Nat) : d.node? (n + 1) = d.body[n]? := rfl

theorem isSome_node?_iff (d : Document) (n : LocalId) : (d.node? n).isSome = true ↔ n < d.size := by
  cases n <;> simp [size]

/-! ### Walks through the tree -/

/-- The nodes above a node, nearest first, as far as `steps` lead. -/
def ancestorsWithin (d : Document) : (steps : Nat) → LocalId → List LocalId
  | 0, _ => []
  | steps + 1, n =>
    match d.parent? n with
    | none => []
    | some p => p :: d.ancestorsWithin steps p

/-- The nodes above a node, nearest first. A parent has a smaller place than its children, so the
place of a node bounds the length of its chain. -/
def ancestors (d : Document) (n : LocalId) : List LocalId := d.ancestorsWithin n n

/-- A node and what is below it, as far as `depth` reaches, a node before its children and the
children in order. -/
def subtreeWithin (d : Document) : (depth : Nat) → LocalId → List LocalId
  | 0, _ => []
  | depth + 1, n => n :: (d.children n).flatMap (d.subtreeWithin depth)

/-- The nodes of a document in the order of the tree. A tree is no deeper than it has nodes. -/
def preorder (d : Document) : List LocalId := d.subtreeWithin d.size 0

/-- The first classifier with a name. -/
def classifierNamed? (d : Document) (name : String) : Option LocalId :=
  d.classifiers.find? fun c ↦ d.name? c == some name

/-- The named nodes among some places, with their names. -/
def named (d : Document) (places : List LocalId) : List (String × NodeId) :=
  places.filterMap fun n ↦ (d.name? n).map (·, d.id n)

/-! ### Changes -/

/-- Moves a node, and the reference that it holds, to a range. Nothing happens at a place without a
node. -/
def setRange (d : Document) (n : LocalId) (range : Range) : Document :=
  match n with
  | 0 => { d with rootRange := range }
  | n + 1 => { d with body := d.body.modify n (Node.relocated range) }

end Document

end Schemata
