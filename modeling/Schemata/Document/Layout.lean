import Schemata.Document.Node

/-!
# Layout

How a declaration becomes nodes. `Declaration.outline` is the tree of a declaration, in which a
reference is bare text. `Outline.seeds` numbers the nodes of a tree in its order, a node before its
children, and `place` gives each numbered node a range of its own. A range begins where the cursor
stands and is as long as the text of the node, at least one byte, and the cursor moves on to one
byte after its end.
-/

namespace Schemata

/-- The tree of a declaration. -/
inductive Outline where
  | node (content : Content String) (children : List Outline)

/-- A numbered node that has no range yet. -/
structure Seed where
  content : Content String
  parent : LocalId
  children : List LocalId
  deriving Repr, BEq

namespace Outline

/-- A node without children. -/
def leaf (content : Content String) : Outline := .node content []

mutual

/-- The number of nodes of a tree. -/
def size : Outline → Nat
  | .node _ children => sizes children + 1

/-- The number of nodes of some trees. -/
def sizes : List Outline → Nat
  | [] => 0
  | t :: ts => t.size + sizes ts

end

/-- The places of the roots of some trees that are numbered one after the other from `n`. -/
def places (n : LocalId) : List Outline → List LocalId
  | [] => []
  | t :: ts => n :: places (n + t.size) ts

mutual

/-- The nodes of a tree, numbered from `n`, below `parent`. -/
def seeds (parent n : LocalId) : Outline → List Seed
  | .node content children =>
    ⟨content, parent, places (n + 1) children⟩ :: seedsOf n (n + 1) children

/-- The nodes of some trees, numbered one after the other from `n`, below `parent`. -/
def seedsOf (parent n : LocalId) : List Outline → List Seed
  | [] => []
  | t :: ts => t.seeds parent n ++ seedsOf parent (n + t.size) ts

end

end Outline

/-! ### The tree of a declaration -/

mutual

/-- The tree of a value. -/
def Value.outline : Value → Outline
  | .scalar s => .leaf (.value s)
  | .array elements => .node .array (outlines elements)

/-- The trees of some values. -/
def Value.outlines : List Value → List Outline
  | [] => []
  | v :: vs => v.outline :: outlines vs

end

/-- The tree of a member: its type, then its default. -/
def MemberSpec.outline (m : MemberSpec) : Outline :=
  .node (.member ⟨m.name, m.role, m.cardinality, m.unique, m.ordered⟩)
    (.leaf (.type m.type) :: m.default.toList.map Value.outline)

def ImportItem.outline (i : ImportItem) : Outline := .leaf (.importItem i.name i.rename)

def AssignmentSpec.outline (a : AssignmentSpec) : Outline :=
  .node (.assignment a.member) [a.value.outline]

/-- The tree of a declaration. -/
def Declaration.outline : Declaration → Outline
  | .imports s => .node (.importClause s.source) (s.items.map ImportItem.outline)
  | .entity s => .node (.entity s.name s.id) (s.members.map MemberSpec.outline)
  | .enumeration s => .node (.enumeration s.name) (s.literals.map fun l ↦ .leaf (.literal l))
  | .instantiation s =>
    .node (.instantiation s.name s.entity) (s.assignments.map AssignmentSpec.outline)

/-! ### Ranges -/

namespace Content

/-- The length of the range of a node. -/
def extent (c : Content String) : Nat := max c.width 1

end Content

namespace Seed

/-- The node of a seed, at the cursor. -/
def toNode (s : Seed) (cursor : Nat) : Node :=
  let range : Range := ⟨cursor, cursor + s.content.extent⟩
  ⟨s.content.located range, some s.parent, s.children, range⟩

/-- Where the cursor stands after some seeds. -/
def advance (cursor : Nat) : List Seed → Nat
  | [] => cursor
  | s :: ss => advance (cursor + s.content.extent + 1) ss

/-- The nodes of some seeds, one after the other from the cursor. -/
def place (cursor : Nat) : List Seed → List Node
  | [] => []
  | s :: ss => s.toNode cursor :: place (cursor + s.content.extent + 1) ss

@[simp] theorem length_place (cursor : Nat) (ss : List Seed) :
    (place cursor ss).length = ss.length := by
  induction ss generalizing cursor with
  | nil => rfl
  | cons s ss ih => simp [place, ih]

end Seed

end Schemata
