import Schemata.Checking.Repeats
import Schemata.Diagnostic.Problem
import Schemata.Typing

/-!
# Findings of values

A value that is meant for a member has to have its type. If it is an array, its size has to lie
within the bounds of the member, and if the values of the member are unique, no element may repeat
an earlier one.
-/

namespace Schemata

/-- What makes two elements of an array the same value. Floating-point numbers are compared by their
bits, except that the two zeros are the same, and references by what they come to. -/
inductive ElementKey where
  | boolean (b : Bool)
  | integer (i : Int64)
  | float (bits : UInt64)
  | string (s : String)
  | node (n : NodeId)
  deriving DecidableEq, Repr

namespace Snapshot

open Inquiry

variable (s : Snapshot)

/-- The key of an element. A reference that does not come to one node has none. -/
def elementKey? (element : NodeId) : Inquiry (Option ElementKey) :=
  match s.catalog.content? element with
  | some (.value v) =>
    match v with
    | .boolean b => return some (.boolean b)
    | .integer i => return some (.integer i)
    | .float x => return some (.float x.foldedBits)
    | .string t => return some (.string t)
    | .literal _ | .contained _ => return (← target? element).map .node
  | _ => return none

/-- A finding at a node that nothing is related to. -/
def finding (p : Problem) (n : NodeId) : Diagnostic := p.report n (s.catalog.range n) []

/-- What is found in the type of a value. -/
def typeFindings (member value : NodeId) : Inquiry (List Diagnostic) := do
  return (← s.mismatches member value).map fun m ↦
    s.finding (.typeMismatch m.expected m.found) m.value

/-- What is found in the size of an array. -/
def sizeFindings (m : Member) (array : NodeId) : List Diagnostic :=
  let (least, greatest) := s.settings.arrayBounds.limits m.cardinality
  let size := (s.catalog.children array).length
  if size < least.toNat then [s.finding (.arrayTooSmall least size) array]
  else if greatest.toNat < size then [s.finding (.arrayTooLarge greatest size) array]
  else []

/-- What is found in the elements of an array of unique values: the repeats. -/
def uniquenessFindings (array : NodeId) : Inquiry (List Diagnostic) := do
  let keyed ← Query.choose (s.catalog.children array) fun element ↦
    return (← s.elementKey? element).map (·, element)
  return (repeats keyed).map fun (element, _) ↦ s.finding .arrayNotUnique element

/-- What is found in a value that is an array. Other values are not looked at. -/
def arrayFindings (member value : NodeId) : Inquiry (List Diagnostic) := do
  let some m := s.catalog.member? member | return []
  let some .array := s.catalog.content? value | return []
  let repeated ← if m.unique then s.uniquenessFindings value else pure []
  return s.sizeFindings m value ++ repeated

/-- What is found in a value that is meant for a member. -/
def valueFindings (member value : NodeId) : Inquiry (List Diagnostic) := do
  return (← s.typeFindings member value) ++ (← s.arrayFindings member value)

end Snapshot

end Schemata
