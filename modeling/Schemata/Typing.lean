import Schemata.Question
import Schemata.Snapshot

/-!
# Typing

The data types of nodes, and whether the value of a member fits it. A member has the type that it
declares; a value has a type of its own and is compared with it. What rests on a reference that does
not resolve has no type, and is not compared.
-/

namespace Schemata

/-- A value that does not fit its member. -/
structure Mismatch where
  value : NodeId
  expected : String
  found : String
  deriving DecidableEq, Repr

namespace Snapshot

open Inquiry

variable (s : Snapshot)

/-- The entity that the reference at a node comes to, as a type. -/
def entityTypeAt (n : NodeId) : Inquiry (Option DataType) := do
  let some target ← target? n | return none
  match s.catalog.content? target with
  | some (.entity ..) => return some (.entity target)
  | _ => return none

/-- The enumeration that the reference at a node comes to, as a type. -/
def enumerationTypeAt (n : NodeId) : Inquiry (Option DataType) := do
  let some target ← target? n | return none
  match s.catalog.content? target with
  | some (.enumeration _) => return some (.enumeration target)
  | _ => return none

/-- The type of what the reference of a literal comes to. -/
def literalTypeAt (n : NodeId) : Inquiry (Option DataType) := do
  let some target ← target? n | return none
  dataType target

/-- The type that a member declares. -/
def declaredType (member : NodeId) : Inquiry (Option DataType) :=
  match s.catalog.typeNode? member with
  | some type => dataType type
  | none => return none

/-- The type of a node. -/
def infer (n : NodeId) : Inquiry (Option DataType) :=
  match s.catalog.content? n with
  | none => return none
  | some content =>
    match content with
    | .type .boolean | .value (.boolean _) => return some .boolean
    | .type .integer | .value (.integer _) => return some .integer
    | .type .float | .value (.float _) => return some .float
    | .type .string | .value (.string _) => return some .string
    | .type (.enumeration _) => s.enumerationTypeAt n
    | .type (.entity _) | .value (.contained _) | .instantiation .. => s.entityTypeAt n
    | .value (.literal _) => literalTypeAt n
    | .entity .. => return some (.entity n)
    | .enumeration _ => return some (.enumeration n)
    | .literal _ => return (s.catalog.parent? n).map .enumeration
    | .member _ => s.declaredType n
    | .assignment _ => do
      let some member ← target? n | return none
      s.declaredType member
    | .root _ | .importClause _ | .importItem .. | .array => return none

/-- The type of the first field of a name. -/
def fieldType (entity : NodeId) (name : String) : Inquiry (Option DataType) :=
  match (s.catalog.fields entity).lookup name with
  | some member => s.declaredType member
  | none => return none

/-! ### Values of members -/

/-- How a scalar differs from what is expected. A scalar without a type does not differ. -/
def scalarMismatch? (expected : DataType) (value : NodeId) : Inquiry (Option Mismatch) := do
  let some found ← dataType value | return none
  if found = expected then return none
  return some ⟨value, expected.name s.catalog, found.name s.catalog⟩

/-- What a message calls the type of a scalar, also of one whose reference does not resolve. -/
def foundName (value : NodeId) : Inquiry String := do
  match ← dataType value with
  | some found => return found.name s.catalog
  | none =>
    match s.catalog.content? value with
    | some (.value (.literal _)) => return ValueKind.literal.text
    | some (.value (.contained _)) => return ValueKind.contained.text
    | _ => return "unknown"

/-- Where the value of a member differs from what the member declares. A member that holds an array
takes an array, each element of which is compared. -/
def mismatches (member value : NodeId) : Inquiry (List Mismatch) := do
  let some m := s.catalog.member? member | return []
  let some expected ← s.declaredType member | return []
  let some content := s.catalog.content? value | return []
  match m.cardinality.isArray, content with
  | false, .array => return [⟨value, expected.name s.catalog, "array"⟩]
  | false, _ => return (← s.scalarMismatch? expected value).toList
  | true, .array => Query.choose (s.catalog.children value) (s.scalarMismatch? expected)
  | true, _ => return [⟨value, "Array of " ++ expected.name s.catalog, ← s.foundName value⟩]

end Snapshot

end Schemata
