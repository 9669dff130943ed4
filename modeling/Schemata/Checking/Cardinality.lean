import Schemata.Diagnostic.Problem
import Schemata.Typing

/-!
# Findings of cardinalities

The bounds of a member have to make sense: no minimum above the maximum, not only the size zero, and
no more unique values than there are values.
-/

namespace Schemata

/-- What is wrong with the bounds of a member. -/
inductive CardinalityFault where
  | reversed
  | zero
  /-- More unique values than there are booleans. -/
  | tooManyBooleans
  /-- More unique values than the enumeration has literals. -/
  | tooManyLiterals (count : Nat)
  deriving DecidableEq, Repr

namespace CardinalityFault

/-- The wording of a fault. -/
def message : CardinalityFault → String
  | .reversed => "The minimum bound of a cardinality cannot be greater than the maximum bound."
  | .zero => "Cardinality 0 is meaningless."
  | .tooManyBooleans => "A unique boolean array cannot have an upper bound greater than 2."
  | .tooManyLiterals count =>
    "A unique enumeration array cannot have an upper bound greater than the number of literals (" ++
      toString count ++ ")."

end CardinalityFault

/-- The faults of bounds by themselves. -/
def Cardinality.faults (c : Cardinality) : List CardinalityFault :=
  (if c.max < c.min then [.reversed] else []) ++
    (if c.upper = some 0 ∧ c.min = 0 then [.zero] else [])

namespace Snapshot

open Inquiry

variable (s : Snapshot)

/-- The number of literals of the enumeration that the reference at a node comes to. -/
def literalCount? (n : NodeId) : Inquiry (Option Nat) := do
  let some enumeration ← target? n | return none
  match s.catalog.content? enumeration with
  | some (.enumeration _) => return some (s.catalog.children enumeration).length
  | _ => return none

/-- The fault of the upper bound of a member whose values are unique. -/
def uniquenessFaults (member : NodeId) (m : Member) : Inquiry (List CardinalityFault) := do
  if !m.unique then return []
  let some upper := m.cardinality.upper | return []
  match s.catalog.memberType? member with
  | some (_, .boolean) => return if 2 < upper then [.tooManyBooleans] else []
  | some (type, .enumeration _) =>
    let some count ← s.literalCount? type | return []
    return if count < upper.toNat then [.tooManyLiterals count] else []
  | _ => return []

/-- What is found in the bounds of a member. -/
def cardinalityFindings (member : NodeId) (m : Member) : Inquiry (List Diagnostic) := do
  let faults := m.cardinality.faults ++ (← s.uniquenessFaults member m)
  return faults.map fun f ↦
    (Problem.invalidCardinality f.message).report member (s.catalog.range member) []

end Snapshot

end Schemata
