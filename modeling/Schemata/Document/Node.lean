import Schemata.Document.Declaration
import Schemata.Document.Id
import Schemata.Document.Site
import Schemata.Source.Range

/-!
# Nodes

A document is a tree of nodes. What a node says is its `Content`; where it stands in the tree is a
parent and a list of children, both by place. Content says nothing about other nodes, so it is
generic in how a reference is held: as bare text before the node has a place, and as a `Reference`
with a range afterwards.

The children of a node have a fixed meaning for each content. A root has the import clauses and then
the classifiers, an import clause its items, an entity its members, an enumeration its literals and
an instance its assignments. A member has its type and then, if there is one, its default. An
assignment has its value, and an array its elements.
-/

namespace Schemata

/-- A reference as written, and where. -/
structure Reference where
  text : String
  range : Range
  deriving DecidableEq, Repr

/-- What a member says besides its type and its default. -/
structure Member where
  name : String
  role : MemberRole
  cardinality : Cardinality
  unique : Bool
  ordered : Bool
  deriving DecidableEq, Repr

/-- What a node says. -/
inductive Content (ρ : Type) where
  | root (name : String)
  | importClause (source : ρ)
  | importItem (imported : ρ) (rename : Option String)
  | entity (name : String) (id : Option String)
  | enumeration (name : String)
  | literal (name : String)
  | member (m : Member)
  | type (t : MemberType ρ)
  | instantiation (name : String) (reference : ρ)
  | assignment (reference : ρ)
  | value (v : Scalar ρ)
  | array
  deriving Repr, BEq

/-- A node in its place. -/
structure Node where
  content : Content Reference
  parent : Option LocalId
  children : List LocalId
  range : Range
  deriving Repr, BEq

/-! ### Types and scalars -/

namespace MemberType

variable {ρ σ : Type}

def map (f : ρ → σ) : MemberType ρ → MemberType σ
  | .boolean => .boolean
  | .integer => .integer
  | .float => .float
  | .string => .string
  | .enumeration name => .enumeration (f name)
  | .entity name => .entity (f name)

def label : MemberType ρ → String
  | .boolean => "BooleanType"
  | .integer => "IntegerType"
  | .float => "FloatType"
  | .string => "StringType"
  | .enumeration _ => "EnumerationType"
  | .entity _ => "ReferenceType"

def reference? : MemberType ρ → Option (Site × ρ)
  | .enumeration name => some (.enumerationType, name)
  | .entity name => some (.entityType, name)
  | _ => none

/-- The length of a type as written. -/
def width : MemberType String → Nat
  | .boolean => "boolean".utf8ByteSize
  | .integer => "integer".utf8ByteSize
  | .float => "float".utf8ByteSize
  | .string => "string".utf8ByteSize
  | .enumeration name => name.utf8ByteSize
  | .entity name => name.utf8ByteSize

end MemberType

namespace Scalar

variable {ρ σ : Type}

def map (f : ρ → σ) : Scalar ρ → Scalar σ
  | .boolean b => .boolean b
  | .integer i => .integer i
  | .float x => .float x
  | .string s => .string s
  | .literal name => .literal (f name)
  | .contained name => .contained (f name)

def label : Scalar ρ → String
  | .boolean _ => "BooleanValue"
  | .integer _ => "IntegerValue"
  | .float _ => "FloatValue"
  | .string _ => "StringValue"
  | .literal _ => "EnumerationLiteralValue"
  | .contained _ => "ContainsValue"

def reference? : Scalar ρ → Option (Site × ρ)
  | .literal name => some (.literalValue, name)
  | .contained name => some (.containedValue, name)
  | _ => none

/-- The length of a scalar as written; a string stands between two quotes. -/
def width : Scalar String → Nat
  | .boolean b => (if b then "true" else "false").utf8ByteSize
  | .integer i => (toString i.toInt).utf8ByteSize
  | .float x => x.text.utf8ByteSize
  | .string s => s.utf8ByteSize + 2
  | .literal name => name.utf8ByteSize
  | .contained name => name.utf8ByteSize

end Scalar

/-! ### Contents -/

namespace Content

variable {ρ σ : Type}

def map (f : ρ → σ) : Content ρ → Content σ
  | .root name => .root name
  | .importClause source => .importClause (f source)
  | .importItem imported rename => .importItem (f imported) rename
  | .entity name id => .entity name id
  | .enumeration name => .enumeration name
  | .literal name => .literal name
  | .member m => .member m
  | .type t => .type (t.map f)
  | .instantiation name reference => .instantiation name (f reference)
  | .assignment reference => .assignment (f reference)
  | .value v => .value (v.map f)
  | .array => .array

/-- The kind of a node as named in reports. -/
def label : Content ρ → String
  | .root _ => "Module"
  | .importClause _ => "Import"
  | .importItem .. => "ClassifierImport"
  | .entity .. => "Entity"
  | .enumeration _ => "Enumeration"
  | .literal _ => "EnumerationLiteral"
  | .member m =>
    match m.role with
    | .attribute => "AttributeMember"
    | .relation _ => "ReferenceMember"
  | .type t => t.label
  | .instantiation .. => "Instance"
  | .assignment _ => "InstanceMember"
  | .value v => v.label
  | .array => "ArrayValue"

/-- The name that a node declares. -/
def name? : Content ρ → Option String
  | .root name => some name
  | .entity name _ => some name
  | .enumeration name => some name
  | .literal name => some name
  | .member m => some m.name
  | .instantiation name _ => some name
  | _ => none

/-- The reference that a node holds, of which there is at most one, and the site that it makes. -/
def reference? : Content ρ → Option (Site × ρ)
  | .importClause source => some (.importSource, source)
  | .importItem imported _ => some (.importItem, imported)
  | .type t => t.reference?
  | .instantiation _ reference => some (.instanceEntity, reference)
  | .assignment reference => some (.assignedMember, reference)
  | .value v => v.reference?
  | _ => none

/-- What the reference of a node should name, as said in findings. -/
def expected (c : Content ρ) : String :=
  match c.reference? with
  | some (site, _) => site.expected
  | none => "Node"

def isEntity : Content ρ → Bool
  | .entity .. => true
  | _ => false

def isEnumeration : Content ρ → Bool
  | .enumeration _ => true
  | _ => false

/-- Whether a node can be named by other documents. -/
def isClassifier : Content ρ → Bool
  | .entity .. | .enumeration _ | .instantiation .. => true
  | _ => false

def isValue : Content ρ → Bool
  | .value _ | .array => true
  | _ => false

/-- Whether nodes of a kind have data types at all. -/
def hasType : Content ρ → Bool
  | .root _ | .importClause _ | .importItem .. | .array => false
  | _ => true

/-- The length of the text that stands for a node. -/
def width : Content String → Nat
  | .root name => name.utf8ByteSize
  | .importClause source => source.utf8ByteSize
  | .importItem imported _ => imported.utf8ByteSize
  | .entity name _ => name.utf8ByteSize
  | .enumeration name => name.utf8ByteSize
  | .literal name => name.utf8ByteSize
  | .member m => m.name.utf8ByteSize
  | .type t => t.width
  | .instantiation name _ => name.utf8ByteSize
  | .assignment reference => reference.utf8ByteSize
  | .value v => v.width
  | .array => 1

/-- The content with its reference, if it has one, at a range. -/
def located (range : Range) (c : Content String) : Content Reference :=
  c.map fun text ↦ ⟨text, range⟩

/-- The content with its reference, if it has one, moved to a range. -/
def relocated (range : Range) (c : Content Reference) : Content Reference :=
  c.map fun r ↦ ⟨r.text, range⟩

@[simp] theorem label_map (f : ρ → σ) (c : Content ρ) : (c.map f).label = c.label := by
  cases c with
  | type t => cases t <;> rfl
  | value v => cases v <;> rfl
  | _ => rfl

@[simp] theorem name?_map (f : ρ → σ) (c : Content ρ) : (c.map f).name? = c.name? := by
  cases c <;> rfl

@[simp] theorem reference?_map (f : ρ → σ) (c : Content ρ) :
    (c.map f).reference? = c.reference?.map fun r ↦ (r.1, f r.2) := by
  cases c with
  | type t => cases t <;> rfl
  | value v => cases v <;> rfl
  | _ => rfl

end Content

namespace Node

/-- The name that a node declares. -/
def name? (n : Node) : Option String := n.content.name?

/-- The node moved to a range, and its reference with it. -/
def relocated (range : Range) (n : Node) : Node :=
  { n with content := n.content.relocated range, range := range }

/-- The type of a member. -/
def type? (n : Node) : Option LocalId := n.children[0]?

/-- The default of a member. -/
def default? (n : Node) : Option LocalId := n.children[1]?

/-- The value of an assignment. -/
def value? (n : Node) : Option LocalId := n.children[0]?

end Node

end Schemata
