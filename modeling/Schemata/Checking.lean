import Schemata.Checking.Cardinality
import Schemata.Checking.Instances
import Schemata.Checking.Linking
import Schemata.Checking.Values

/-!
# Checking

All findings of a document: first those of its references, then those of its contents, each in the
order of the tree. A check of contents that rests on a reference which does not resolve finds
nothing, since the reference is a finding already.
-/

namespace Schemata

namespace Catalog

/-- The places that have to have different names below a node, and what they are called. -/
def siblings? (c : Catalog) (n : NodeId) : Option (List NodeId × String) :=
  match c.node? n with
  | none => none
  | some node =>
    match node.content with
    | .root _ =>
      (c.document? n.file).map fun d ↦ (d.classifiers.map n.sibling, "classifier")
    | .entity .. => some (c.children n, "member")
    | .enumeration _ => some (c.children n, "literal")
    | _ => none

/-- What is found in the names below a node: those that an earlier sibling has. -/
def nameFindings (c : Catalog) (n : NodeId) : List Diagnostic :=
  match c.siblings? n with
  | none => []
  | some (places, what) =>
    let named := places.filterMap fun n ↦ (c.name? n).map fun name ↦ (name, (name, n))
    (repeats named).map fun ((name, n), (_, first)) ↦
      (Problem.duplicateName what name).report n (c.range n)
        [⟨first, c.range first, "first declared here"⟩]

end Catalog

namespace Snapshot

open Inquiry

variable (s : Snapshot)

/-- What is found in a member. -/
def memberFindings (n : NodeId) (m : Member) : Inquiry (List Diagnostic) := do
  let bounds ← s.cardinalityFindings n m
  match s.catalog.default? n with
  | some value => return bounds ++ (← s.valueFindings n value)
  | none => return bounds

/-- What is found in the content of a node. -/
def contentFindings (n : NodeId) : Inquiry (List Diagnostic) :=
  match s.catalog.content? n with
  | some (.root _) | some (.entity ..) | some (.enumeration _) => return s.catalog.nameFindings n
  | some (.member m) => s.memberFindings n m
  | some (.instantiation name _) =>
    return (← s.completenessFindings n name) ++ (← s.assignmentFindings n)
  | some (.assignment _) => do
    let some member ← target? n | return []
    let some value := s.catalog.assigned? n | return []
    s.valueFindings member value
  | _ => return []

/-- All findings of the document of a file, none if there is no document. -/
def check (file : FileId) : Inquiry (List Diagnostic) := do
  let some d := s.catalog.document? file | return []
  let nodes := d.preorder.map d.id
  return (← Query.collect nodes s.referenceFindings) ++ (← Query.collect nodes s.contentFindings)

/-- All findings of all documents, in order. -/
def checkAll : Inquiry (List (FileId × List Diagnostic)) :=
  Query.forEach s.catalog.files fun file ↦ return (file, ← s.check file)

end Snapshot

end Schemata
