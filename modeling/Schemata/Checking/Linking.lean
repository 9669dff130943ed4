import Schemata.Diagnostic.Problem
import Schemata.Visibility

/-!
# Findings of references

Each reference that comes to no node, or to several, is a finding at the node that holds it. A
reference that rests on another one which does not resolve is not: the other one is the cause.
-/

namespace Schemata

/-- Whether a node is of the kind that a site asks for. Members and literals are only ever named
from within reach of their owner, so that none elsewhere is of help. -/
def Site.admits {ρ : Type} (site : Site) (content : Content ρ) : Bool :=
  match site, content with
  | .importSource, .root _ => true
  | .importItem, c => c.isClassifier
  | .enumerationType, c => c.isEnumeration
  | .entityType, c | .instanceEntity, c | .containedValue, c => c.isEntity
  | _, _ => false

namespace Catalog

/-- Declarations of a name in other documents that would fit a site, for example to be offered as
an import. -/
def declaredElsewhere (c : Catalog) (file : FileId) (site : Site) (name : String) : List Related :=
  ((c.globalScope file).matching name).filterMap fun e ↦
    match c.node? e.target with
    | none => none
    | some node =>
      if site.admits node.content then
        let document := ((c.document? e.target.file).map (·.name)).getD ""
        some ⟨e.target, node.range, "'" ++ e.name ++ "' is declared in module '" ++ document ++ "'"⟩
      else none

/-- A node as one of several that a reference could mean. -/
def asCandidate (c : Catalog) (target : NodeId) : Related :=
  ⟨target, c.range target, c.qualifiedName target⟩

end Catalog

namespace Snapshot

open Inquiry

variable (s : Snapshot)

/-- What is found at the reference of a node. -/
def referenceFindings (n : NodeId) : Inquiry (List Diagnostic) := do
  let some content := s.catalog.content? n | return []
  let some (site, reference) := content.reference? | return []
  let failure : LinkingFailure := ⟨site.expected, reference.text, content.label, site.property⟩
  match ← resolution n with
  | .found _ | .blocked => return []
  | .notFound =>
    let related :=
      if s.settings.relatedCandidates then s.catalog.declaredElsewhere n.file site reference.text
      else []
    return [(Problem.unresolved failure).report n reference.range related]
  | .ambiguous targets =>
    let problem := Problem.ambiguous s.settings.ambiguousReferenceSeverity failure
    return [problem.report n reference.range (targets.map s.catalog.asCandidate)]

end Snapshot

end Schemata
