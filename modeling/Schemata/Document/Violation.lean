import Schemata.Document.Declaration
import Schemata.Document.Site
import Schemata.Text.Identifier

/-!
# Violations of a declaration

A declaration is accepted when names are identifiers, no reference is blank, and no array is an
element of an array. `Declaration.violations` lists everything against it in the order of the text,
and the first entry is what a refusal reports.
-/

namespace Schemata

/-- Why a declaration, or the name of a document, is refused. -/
inductive BuildError where
  | invalidIdentifier (text : String)
  | emptyReference (site : Site)
  /-- An array inside an array, in the value of the named member. -/
  | nestedArray (owner : String)
  deriving DecidableEq, Repr

/-- The wording of a refusal. -/
def BuildError.message : BuildError → String
  | .invalidIdentifier text => "'" ++ text ++ "' is not a valid identifier"
  | .emptyReference site => "reference text of " ++ site.phrase ++ " is empty"
  | .nestedArray owner => "array values cannot contain arrays (in '" ++ owner ++ "')"

namespace Violation

/-- What is wrong with a reference. -/
def ofReference (site : Site) (text : String) : List BuildError :=
  if Text.isBlank text then [.emptyReference site] else []

@[simp] theorem ofReference_eq_nil {site : Site} {text : String} :
    ofReference site text = [] ↔ Text.isBlank text = false := by
  simp [ofReference]

variable [Text.IdentifierClasses]

/-- What is wrong with a declared name. -/
def ofName (name : String) : List BuildError :=
  if Text.isIdentifier name then [] else [.invalidIdentifier name]

@[simp] theorem ofName_eq_nil {name : String} :
    ofName name = [] ↔ Text.isIdentifier name = true := by
  simp [ofName]

end Violation

open Violation

variable [Text.IdentifierClasses]

/-- What is wrong with a type. -/
def MemberType.violations : MemberType String → List BuildError
  | .enumeration name => ofReference .enumerationType name
  | .entity name => ofReference .entityType name
  | _ => []

/-- What is wrong with a scalar. -/
def Scalar.violations : Scalar String → List BuildError
  | .literal name => ofReference .literalValue name
  | .contained name => ofReference .containedValue name
  | _ => []

/-- What is wrong with an element of an array in the value of `owner`. -/
def Value.elementViolations (owner : String) : Value → List BuildError
  | .scalar s => s.violations
  | .array _ => [.nestedArray owner]

/-- What is wrong with a value of `owner`. -/
def Value.violations (owner : String) : Value → List BuildError
  | .scalar s => s.violations
  | .array elements => elements.flatMap (elementViolations owner)

/-- What is wrong with a member: its name, its type, then its default. -/
def MemberSpec.violations (m : MemberSpec) : List BuildError :=
  ofName m.name ++ m.type.violations ++ m.default.toList.flatMap (Value.violations m.name)

/-- What is wrong with an imported classifier: its alias comes before its name. -/
def ImportItem.violations (i : ImportItem) : List BuildError :=
  i.rename.toList.flatMap ofName ++ ofReference .importItem i.name

/-- What is wrong with an assignment. -/
def AssignmentSpec.violations (a : AssignmentSpec) : List BuildError :=
  ofReference .assignedMember a.member ++ a.value.violations a.member

/-- Everything that is wrong with a declaration, in the order of the text. -/
def Declaration.violations : Declaration → List BuildError
  | .imports s => ofReference .importSource s.source ++ s.items.flatMap ImportItem.violations
  | .entity s => ofName s.name ++ s.members.flatMap MemberSpec.violations
  | .enumeration s => ofName s.name ++ s.literals.flatMap ofName
  | .instantiation s =>
    ofName s.name ++ ofReference .instanceEntity s.entity ++
      s.assignments.flatMap AssignmentSpec.violations

/-- The first violation, if there is one. -/
def Declaration.firstViolation? (d : Declaration) : Option BuildError := d.violations.head?

theorem Declaration.firstViolation?_eq_none_iff {d : Declaration} :
    d.firstViolation? = none ↔ d.violations = [] := by
  simp [firstViolation?]

end Schemata
