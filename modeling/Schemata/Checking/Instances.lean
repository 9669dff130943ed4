import Schemata.Checking.Repeats
import Schemata.Diagnostic.Problem
import Schemata.Typing

/-!
# Findings of instances

An instance has to assign a value to every attribute of its entity that has no default, and may
assign one to a member only once.
-/

namespace Schemata

namespace Catalog

/-- The names that the assignments of an instance use. -/
def assignedNames (c : Catalog) (instantiation : NodeId) : List String :=
  (c.children instantiation).filterMap fun a ↦
    match c.content? a with
    | some (.assignment reference) => some reference.text
    | _ => none

/-- The names of the attributes of an entity that have no default, in order. -/
def requiredNames (c : Catalog) (entity : NodeId) : List String :=
  (c.children entity).filterMap fun n ↦
    match c.member? n with
    | some m => if m.role = .attribute ∧ c.default? n = none then some m.name else none
    | none => none

end Catalog

namespace Snapshot

open Inquiry

variable (s : Snapshot)

/-- What is found missing in an instance. -/
def completenessFindings (n : NodeId) (name : String) : Inquiry (List Diagnostic) := do
  let some entity ← target? n | return []
  let some (.entity entityName _) := s.catalog.content? entity | return []
  let assigned := s.catalog.assignedNames n
  let missing := (s.catalog.requiredNames entity).filter fun m ↦ !assigned.contains m
  if missing.isEmpty then return []
  return [(Problem.missingMembers entityName name missing).report n (s.catalog.range n) []]

/-- What is found in the assignments of an instance: those to a member that has one already. -/
def assignmentFindings (n : NodeId) : Inquiry (List Diagnostic) := do
  let bound ← Query.choose (s.catalog.children n) fun a ↦
    return (← target? a).map fun member ↦ (member, (a, (s.catalog.name? member).getD ""))
  return (repeats bound).map fun ((a, name), (first, _)) ↦
    (Problem.duplicateName "member assignment" name).report a (s.catalog.range a)
      [⟨first, s.catalog.range first, "first assigned here"⟩]

end Snapshot

end Schemata
