/-!
# Reference sites

A reference names something that is declared elsewhere. There are eight kinds of site at which one
can stand, and the kind of site decides what the name may mean.
-/

namespace Schemata

/-- A kind of place that holds a reference. -/
inductive Site where
  /-- The document that an import names. -/
  | importSource
  /-- A classifier taken over by an import. -/
  | importItem
  /-- The entity that types a member. -/
  | entityType
  /-- The enumeration that types a member. -/
  | enumerationType
  /-- The entity that an instance instantiates, by its external id. -/
  | instanceEntity
  /-- The member to which an instance assigns a value. -/
  | assignedMember
  /-- A literal used as a value. -/
  | literalValue
  /-- An entity used as a contained value. -/
  | containedValue
  deriving DecidableEq, Repr

namespace Site

/-- The site as named in the refusal of a blank reference. -/
def phrase : Site → String
  | .importSource => "an import"
  | .importItem => "a classifier import"
  | .entityType => "a reference type"
  | .enumerationType => "an enumeration type"
  | .instanceEntity => "an instance"
  | .assignedMember => "an instance member"
  | .literalValue => "an enumeration literal value"
  | .containedValue => "a contains value"

/-- The property of the grammar that holds the reference. -/
def property : Site → String
  | .importSource => "fromModule"
  | .importItem => "imported"
  | .entityType => "ref"
  | .enumerationType => "enumerationRef"
  | .instanceEntity => "entityRef"
  | .assignedMember => "memberRef"
  | .literalValue => "literalRef"
  | .containedValue => "ref"

/-- What the reference should name, as said in findings. -/
def expected : Site → String
  | .importSource => "Module"
  | .importItem => "Classifier"
  | .entityType => "Entity"
  | .enumerationType => "Enumeration"
  | .instanceEntity => "Entity"
  | .assignedMember => "Member"
  | .literalValue => "EnumerationLiteral"
  | .containedValue => "Entity"

end Site

end Schemata
