import Schemata.Document.Basic

/-!
# Reading a document back

What was declared can be read off a document: from its imports and its classifiers down through the
children, each node by its content. A reference is read as its bare text, and neither places nor
ranges are read. Reading fails at a node that has other children than its content asks for.
-/

namespace Schemata

namespace Document

variable (d : Document)

/-- The content at a place, with its reference, if it has one, as bare text. -/
def bareContent? (n : LocalId) : Option (Content String) :=
  (d.content? n).map (·.map (·.text))

/-- The type at a place. -/
def writtenType? (n : LocalId) : Option (MemberType String) :=
  match d.bareContent? n with
  | some (.type t) => some t
  | _ => none

/-- The element of an array at a place. -/
def writtenElement? (n : LocalId) : Option Value :=
  match d.bareContent? n with
  | some (.value v) => some (.scalar v)
  | _ => none

/-- The value at a place. -/
def writtenValue? (n : LocalId) : Option Value :=
  match d.bareContent? n with
  | some (.value v) => some (.scalar v)
  | some .array => ((d.children n).mapM d.writtenElement?).map .array
  | _ => none

/-- The member at a place. -/
def writtenMember? (n : LocalId) : Option MemberSpec :=
  match d.bareContent? n, d.children n with
  | some (.member m), [t] => do
    let type ← d.writtenType? t
    return ⟨m.name, m.role, type, m.cardinality, m.unique, m.ordered, none⟩
  | some (.member m), [t, v] => do
    let type ← d.writtenType? t
    let default ← d.writtenValue? v
    return ⟨m.name, m.role, type, m.cardinality, m.unique, m.ordered, some default⟩
  | _, _ => none

/-- The imported classifier at a place. -/
def writtenItem? (n : LocalId) : Option ImportItem :=
  match d.bareContent? n with
  | some (.importItem imported rename) => some ⟨imported, rename⟩
  | _ => none

/-- The literal at a place. -/
def writtenLiteral? (n : LocalId) : Option String :=
  match d.bareContent? n with
  | some (.literal name) => some name
  | _ => none

/-- The assignment at a place. -/
def writtenAssignment? (n : LocalId) : Option AssignmentSpec :=
  match d.bareContent? n, d.children n with
  | some (.assignment member), [v] => (d.writtenValue? v).map fun value ↦ ⟨member, value⟩
  | _, _ => none

/-- The declaration at a place. -/
def writtenDeclaration? (n : LocalId) : Option Declaration :=
  match d.bareContent? n with
  | some (.importClause source) =>
    ((d.children n).mapM d.writtenItem?).map fun items ↦ .imports ⟨source, items⟩
  | some (.entity name id) =>
    ((d.children n).mapM d.writtenMember?).map fun members ↦ .entity ⟨name, id, members⟩
  | some (.enumeration name) =>
    ((d.children n).mapM d.writtenLiteral?).map fun literals ↦ .enumeration ⟨name, literals⟩
  | some (.instantiation name entity) =>
    ((d.children n).mapM d.writtenAssignment?).map fun assignments ↦
      .instantiation ⟨name, entity, assignments⟩
  | _ => none

/-- The imports of a document, in order. -/
def writtenImports? : Option (List Declaration) := d.imports.mapM d.writtenDeclaration?

/-- The classifiers of a document, in order. -/
def writtenClassifiers? : Option (List Declaration) := d.classifiers.mapM d.writtenDeclaration?

end Document

end Schemata
