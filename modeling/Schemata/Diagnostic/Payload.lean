import Schemata.Json.Reader

/-!
# Payloads

What a tool needs to mend a finding without reading its message. In JSON a payload is an object
without a tag: the keys tell which payload it is, and other keys, such as the code of the finding,
are passed over.
-/

namespace Schemata

/-- A reference that does not come to one node, in the words of findings. -/
structure LinkingFailure where
  /-- What the reference should name. -/
  expectedKind : String
  refText : String
  /-- The kind of the node that holds the reference. -/
  containerKind : String
  /-- The property of the grammar that holds it. -/
  property : String
  deriving DecidableEq, Repr

/-- The structured part of a finding. -/
inductive Payload where
  | linking (failure : LinkingFailure)
  | missingMembers (instanceName : String) (names : List String)
  deriving DecidableEq, Repr

namespace Payload

/-- The keys and values of a payload. -/
def fields : Payload → List (String × Json)
  | .linking f =>
    [("expectedKind", .text f.expectedKind), ("refText", .text f.refText),
      ("containerKind", .text f.containerKind), ("property", .text f.property)]
  | .missingMembers instanceName names =>
    [("instanceName", .text instanceName), ("missingMemberNames", .array (names.map .text))]

/-- The object of a payload, with the code of its finding. -/
def toJson (p : Payload) (code : String) : Json := .ofFields (p.fields ++ [("code", .text code)])

/-- The text under a key that occurs exactly once. -/
def textField? (key : String) (fields : List (Option String × Json)) : Option String :=
  (Json.field? key fields).bind Json.text?

/-- The linking failure that the fields of an object describe. -/
def linking? (fields : List (Option String × Json)) : Option Payload := do
  let expectedKind ← textField? "expectedKind" fields
  let refText ← textField? "refText" fields
  let containerKind ← textField? "containerKind" fields
  let property ← textField? "property" fields
  return .linking ⟨expectedKind, refText, containerKind, property⟩

/-- The missing members that the fields of an object describe. -/
def missingMembers? (fields : List (Option String × Json)) : Option Payload := do
  let instanceName ← textField? "instanceName" fields
  let names ← (Json.field? "missingMemberNames" fields).bind Json.texts?
  return .missingMembers instanceName names

/-- The payload of an object. One that could be both is a linking failure. -/
def ofJson? : Json → Option Payload
  | .object fields => (linking? fields).or (missingMembers? fields)
  | _ => none

/-- How deep a payload may be nested, counting values that are passed over. -/
def depth : Nat := 127

/-- The payload that a text spells in JSON. -/
def parse? (s : String) : Option Payload :=
  ((Json.parse? s).filter (·.fits depth)).bind ofJson?

end Payload

end Schemata
