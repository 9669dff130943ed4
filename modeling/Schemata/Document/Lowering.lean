import Schemata.Document.Draft

/-!
# Lowering

How a declaration is taken into a draft node by node. It is checked on the way, so that it can fail
after some of its nodes, and of what is below them, are there already. `Draft.attempt` drops the
nodes that a failed attempt has added and puts the cursor back. It keeps no copy of the draft: a
node that was there before, or an entry in the lists of the root, would not be put back if the
attempt had changed it.
-/

namespace Schemata

open Violation

variable [Text.IdentifierClasses]

/-- What takes a part of a declaration into a draft. A failure leaves the draft as it is then. -/
abbrev Lowering := EStateM BuildError Draft

/-- Changes the node at a place after the root. -/
def Document.amend (d : Document) (n : LocalId) (f : Node → Node) : Document :=
  match n with
  | 0 => d
  | n + 1 => { d with body := d.body.modify n f }

namespace Lowering

/-! ### Nodes -/

/-- Fails for the first of some violations, if there is one. -/
def check : List BuildError → Lowering Unit
  | [] => pure ()
  | e :: _ => throw e

/-- Adds a node at the cursor. Its reference, if it holds one, is nowhere yet. -/
def alloc (content : Content String) (parent : LocalId) : Lowering LocalId :=
  modifyGet fun d ↦
    let range : Range := ⟨d.cursor, d.cursor + content.extent⟩
    let node : Node := ⟨content.located .empty, some parent, [], range⟩
    (d.document.size,
      { document := { d.document with body := d.document.body ++ [node] }
        cursor := d.cursor + content.extent + 1 })

/-- Changes a node. -/
def amend (n : LocalId) (f : Node → Node) : Lowering Unit :=
  modify fun d ↦ { d with document := d.document.amend n f }

/-- Adds a node, and puts the reference that it holds where the node is. -/
def leaf (content : Content String) (parent : LocalId) : Lowering LocalId := do
  let n ← alloc content parent
  amend n fun node ↦ node.relocated node.range
  return n

/-- Adds a node and then what is below it, which become its children in the end. -/
def branch (content : Content String) (parent : LocalId)
    (below : LocalId → Lowering (List LocalId)) : Lowering LocalId := do
  let n ← leaf content parent
  let children ← below n
  amend n fun node ↦ { node with children }
  return n

end Lowering

open Lowering

/-! ### Types and values -/

def MemberType.lower (member : LocalId) (t : MemberType String) : Lowering LocalId := do
  check t.violations
  leaf (.type t) member

mutual

/-- Takes in a value of `owner`, or an element of one. -/
def Value.lower (owner : String) (isElement : Bool) (parent : LocalId) :
    Value → Lowering LocalId
  | .scalar s => do
    check s.violations
    leaf (.value s) parent
  | .array elements => do
    check (if isElement then [.nestedArray owner] else [])
    branch .array parent fun array ↦ lowerElements owner array elements

def Value.lowerElements (owner : String) (array : LocalId) : List Value → Lowering (List LocalId)
  | [] => pure []
  | v :: vs => do
    let n ← v.lower owner true array
    let ns ← lowerElements owner array vs
    return n :: ns

end

/-! ### Parts of a declaration -/

def ImportItem.lower (clause : LocalId) (i : ImportItem) : Lowering LocalId := do
  check (i.rename.toList.flatMap ofName)
  check (ofReference .importItem i.name)
  leaf (.importItem i.name i.rename) clause

/-- Takes in a member: its type, then its default. -/
def MemberSpec.lower (entity : LocalId) (m : MemberSpec) : Lowering LocalId := do
  check (ofName m.name)
  branch (.member ⟨m.name, m.role, m.cardinality, m.unique, m.ordered⟩) entity fun member ↦ do
    let type ← m.type.lower member
    let default ← m.default.toList.mapM (Value.lower m.name false member)
    return type :: default

/-- Takes in the name of a literal. -/
def EnumerationSpec.lowerLiteral (enumeration : LocalId) (name : String) : Lowering LocalId := do
  check (ofName name)
  leaf (.literal name) enumeration

def AssignmentSpec.lower (instantiation : LocalId) (a : AssignmentSpec) : Lowering LocalId := do
  check (ofReference .assignedMember a.member)
  branch (.assignment a.member) instantiation fun assignment ↦ do
    let value ← a.value.lower a.member false assignment
    return [value]

/-! ### Declarations -/

/-- Takes in the nodes of a declaration. -/
def Declaration.lowerTree : Declaration → Lowering LocalId
  | .imports s => do
    check (ofReference .importSource s.source)
    branch (.importClause s.source) 0 fun clause ↦ s.items.mapM (ImportItem.lower clause)
  | .entity s => do
    check (ofName s.name)
    branch (.entity s.name s.id) 0 fun entity ↦ s.members.mapM (MemberSpec.lower entity)
  | .enumeration s => do
    check (ofName s.name)
    branch (.enumeration s.name) 0 fun enumeration ↦
      s.literals.mapM (EnumerationSpec.lowerLiteral enumeration)
  | .instantiation s => do
    check (ofName s.name)
    check (ofReference .instanceEntity s.entity)
    branch (.instantiation s.name s.entity) 0 fun instantiation ↦
      s.assignments.mapM (AssignmentSpec.lower instantiation)

/-- Takes in a declaration. The root lists it when all of its nodes are there. -/
def Declaration.lower (x : Declaration) : Lowering LocalId := do
  let n ← x.lowerTree
  modify fun d ↦ { d with document := d.document.enlist x n }
  return n

namespace Draft

/-- Drops the nodes after a number of them, and puts the cursor back. -/
def rewind (d : Draft) (length cursor : Nat) : Draft :=
  { document := { d.document with body := d.document.body.take length }
    cursor := cursor }

/-- Takes in a declaration, or rewinds what was added of it. -/
def attempt (d : Draft) (x : Declaration) : Draft × Outcome :=
  match x.lower.run d with
  | .ok n d' => (d', .declared n)
  | .error e d' => (d'.rewind d.document.body.length d.cursor, .refused e)

end Draft

end Schemata
