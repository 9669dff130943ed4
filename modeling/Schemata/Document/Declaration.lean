import Schemata.Cardinality
import Schemata.Number.Binary64

/-!
# Declarations

What a document declares, before it has a place in one: imports of classifiers from other documents,
and classifiers, which are entities, enumerations and instances. A reference is still the bare text
that names its target.

Types and scalars are generic in how a reference is held, because they occur again in the nodes of a
document, where a reference also has a range.
-/

namespace Schemata

/-- The declared type of a member. -/
inductive MemberType (ρ : Type) where
  | boolean
  | integer
  | float
  | string
  | enumeration (name : ρ)
  | entity (name : ρ)
  deriving DecidableEq, Repr, BEq

/-- A value that is not an array: a constant, or a reference to a literal or to an entity. -/
inductive Scalar (ρ : Type) where
  | boolean (b : Bool)
  | integer (i : Int64)
  | float (x : Binary64)
  | string (s : String)
  | literal (name : ρ)
  | contained (name : ρ)
  deriving Repr, BEq

/-- A value as written. Arrays inside arrays can be written, but no declaration that holds one is
accepted. -/
inductive Value where
  | scalar (s : Scalar String)
  | array (elements : List Value)
  deriving Repr, BEq

/-- Whether a member is an attribute of its entity or relates it to another entity. -/
inductive MemberRole where
  | attribute
  /-- A relation, which is a composition if the other entity is contained. -/
  | relation (contains : Bool)
  deriving DecidableEq, Repr, BEq

/-- A member of an entity. -/
structure MemberSpec where
  name : String
  role : MemberRole
  type : MemberType String
  cardinality : Cardinality
  unique : Bool
  ordered : Bool
  default : Option Value
  deriving Repr, BEq

/-- A classifier that an import takes over, under another name if it has an alias. -/
structure ImportItem where
  name : String
  rename : Option String
  deriving DecidableEq, Repr, BEq

/-- An import of classifiers from the document named `source`. -/
structure ImportSpec where
  source : String
  items : List ImportItem
  deriving DecidableEq, Repr, BEq

/-- An entity. Instances refer to it by `id`, not by its name. -/
structure EntitySpec where
  name : String
  id : Option String
  members : List MemberSpec
  deriving Repr, BEq

/-- An enumeration and the names of its literals. -/
structure EnumerationSpec where
  name : String
  literals : List String
  deriving DecidableEq, Repr, BEq

/-- A value given to a member. -/
structure AssignmentSpec where
  member : String
  value : Value
  deriving Repr, BEq

/-- An instance of the entity whose external id is `entity`. -/
structure InstanceSpec where
  name : String
  entity : String
  assignments : List AssignmentSpec
  deriving Repr, BEq

/-- One declaration of a document. -/
inductive Declaration where
  | imports (spec : ImportSpec)
  | entity (spec : EntitySpec)
  | enumeration (spec : EnumerationSpec)
  | instantiation (spec : InstanceSpec)
  deriving Repr, BEq

end Schemata
