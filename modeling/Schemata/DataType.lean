import Schemata.Catalog

/-!
# Data types

Members, values and declarations have data types. Enumerations and entities are types by
declaration: two of them are the same type only if they are the same node.
-/

namespace Schemata

/-- A data type. -/
inductive DataType where
  | boolean
  | integer
  | float
  | string
  | enumeration (declaration : NodeId)
  | entity (declaration : NodeId)
  deriving DecidableEq, Repr

namespace DataType

/-- The type as named in messages: by its declaration, if it has one. -/
def name (c : Catalog) : DataType → String
  | .boolean => "boolean"
  | .integer => "integer"
  | .float => "float"
  | .string => "string"
  | .enumeration n => (c.name? n).getD ""
  | .entity n => (c.name? n).getD ""

end DataType

/-- The shape of the values of a member, which can be told without resolving a reference. -/
inductive ValueKind where
  | boolean
  | integer
  | float
  | string
  | literal
  | contained
  deriving DecidableEq, Repr

namespace ValueKind

/-- The shape as named in messages. -/
def text : ValueKind → String
  | .boolean => "boolean"
  | .integer => "integer"
  | .float => "float"
  | .string => "string"
  | .literal => "enumeration literal"
  | .contained => "contains"

end ValueKind

/-- The shape of the values of a declared type. -/
def MemberType.valueKind {ρ : Type} : MemberType ρ → ValueKind
  | .boolean => .boolean
  | .integer => .integer
  | .float => .float
  | .string => .string
  | .enumeration _ => .literal
  | .entity _ => .contained

namespace Catalog

/-- What a member says. -/
def member? (c : Catalog) (n : NodeId) : Option Member :=
  match c.content? n with
  | some (.member m) => some m
  | _ => none

/-- The node of the type of a member. -/
def typeNode? (c : Catalog) (n : NodeId) : Option NodeId :=
  match c.content? n with
  | some (.member _) => ((c.node? n).bind (·.type?)).map n.sibling
  | _ => none

/-- The type of a member: its node, and what is written there. -/
def memberType? (c : Catalog) (n : NodeId) : Option (NodeId × MemberType Reference) :=
  match c.typeNode? n with
  | none => none
  | some t =>
    match c.content? t with
    | some (.type written) => some (t, written)
    | _ => none

/-- A member has a written type exactly if the node of its type holds it. -/
theorem memberType?_eq_some_iff {c : Catalog} {m t : NodeId} {w : MemberType Reference} :
    c.memberType? m = some (t, w) ↔ c.typeNode? m = some t ∧ c.content? t = some (.type w) := by
  rw [memberType?]
  cases c.typeNode? m with
  | none => simp
  | some t' =>
    constructor
    · intro h
      dsimp only at h
      split at h
      · rename_i written hwritten
        rw [Option.some.injEq, Prod.mk.injEq] at h
        obtain ⟨rfl, rfl⟩ := h
        exact ⟨rfl, hwritten⟩
      · cases h
    · rintro ⟨ht, hw⟩
      obtain rfl : t' = t := Option.some.inj ht
      simp only [hw]

theorem content?_of_memberType? {c : Catalog} {m t : NodeId} {w : MemberType Reference}
    (h : c.memberType? m = some (t, w)) : c.content? t = some (.type w) :=
  (memberType?_eq_some_iff.1 h).2

/-- The default of a member. -/
def default? (c : Catalog) (member : NodeId) : Option NodeId :=
  ((c.node? member).bind (·.default?)).map member.sibling

/-- The value of an assignment. -/
def assigned? (c : Catalog) (assignment : NodeId) : Option NodeId :=
  ((c.node? assignment).bind (·.value?)).map assignment.sibling

/-- The shape of the values of a member. -/
def valueKind? (c : Catalog) (member : NodeId) : Option ValueKind :=
  (c.memberType? member).map (·.2.valueKind)

/-- The fields of an entity: its members by name, in order. Other nodes have none. -/
def fields (c : Catalog) (entity : NodeId) : List (String × NodeId) :=
  match c.content? entity with
  | some (.entity ..) => c.namedChildren entity
  | _ => []

end Catalog

end Schemata
