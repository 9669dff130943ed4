import Schemata.Diagnostic.Basic

/-!
# Problems

What can be wrong with a document. A problem fixes the severity, the code, the wording and the
payload of the diagnostic that reports it, and leaves open where it is and what is related to it.
-/

namespace Schemata

/-- What is wrong at a node. -/
inductive Problem where
  /-- No node in scope has the name. -/
  | unresolved (failure : LinkingFailure)
  /-- Several nodes in scope have the name; they are related to the problem. -/
  | ambiguous (severity : Severity) (failure : LinkingFailure)
  | duplicateName (what name : String)
  | typeMismatch (expected found : String)
  | invalidCardinality (message : String)
  | arrayTooSmall (least : UInt64) (size : Nat)
  | arrayTooLarge (greatest : UInt64) (size : Nat)
  | arrayNotUnique
  | missingMembers (entity instanceName : String) (names : List String)
  deriving DecidableEq, Repr

namespace Problem

/-- The code by which tools know a problem. -/
def code : Problem → String
  | .unresolved _ => "linking-error"
  | .ambiguous .. => "ambiguous-reference"
  | .duplicateName .. => "duplicate-name"
  | .typeMismatch .. => "type-mismatch"
  | .invalidCardinality _ => "invalid-cardinality"
  | .arrayTooSmall .. => "array-size"
  | .arrayTooLarge .. => "array-size"
  | .arrayNotUnique => "array-not-unique"
  | .missingMembers .. => "missing-members"

/-- Every problem is an error, save that the severity of an ambiguous reference can be chosen. -/
def severity : Problem → Severity
  | .ambiguous severity _ => severity
  | _ => .error

def payload : Problem → Option Payload
  | .unresolved failure => some (.linking failure)
  | .ambiguous _ failure => some (.linking failure)
  | .missingMembers _ instanceName names => some (.missingMembers instanceName names)
  | _ => none

/-- Texts with a comma between each two. -/
def listed (texts : List String) : String := ", ".intercalate texts

/-- The wording of a problem. That of an ambiguous reference lists what is related to it. -/
def message (related : List Related) : Problem → String
  | .unresolved f =>
    "Could not resolve reference to " ++ f.expectedKind ++ " named '" ++ f.refText ++ "'."
  | .ambiguous _ f =>
    "Ambiguous reference to " ++ f.expectedKind ++ " named '" ++ f.refText ++ "': " ++
      listed (related.map (·.message)) ++ "."
  | .duplicateName what name => "A " ++ what ++ " named '" ++ name ++ "' already exists."
  | .typeMismatch expected found =>
    "Value must be of type '" ++ expected ++ "', found '" ++ found ++ "'."
  | .invalidCardinality message => message
  | .arrayTooSmall least size =>
    "Array must have at least " ++ toString least.toNat ++ " element(s), " ++ toString size ++
      " found."
  | .arrayTooLarge greatest size =>
    "Array must have at most " ++ toString greatest.toNat ++ " element(s), " ++ toString size ++
      " found."
  | .arrayNotUnique => "Array must only have unique values."
  | .missingMembers entity instanceName names =>
    entity ++ " '" ++ instanceName ++ "' is missing the following members: " ++ listed names ++ "."

/-- The diagnostic that reports a problem. -/
def report (p : Problem) (node : NodeId) (range : Range) (related : List Related) : Diagnostic :=
  ⟨node, range, p.severity, some p.code, p.message related, p.payload, related⟩

end Problem

end Schemata
