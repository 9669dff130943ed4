import Schemata.Cardinality
import Schemata.Json.Reader
import Schemata.Severity

/-!
# Settings

The settings of an analysis and their JSON form: an object whose keys may be missing, with unknown
keys passed over, or an array of the values in the order of the fields, of which the last ones may
be missing. An option with a fixed set of names is written as a name, or as an object with the name
as its only key and null as its value.
-/

namespace Schemata

/-- What an analysis can be told. -/
structure Settings where
  arrayBounds : ArrayBounds
  /-- The severity of a reference that several declarations could meet. -/
  ambiguousReferenceSeverity : Severity
  /-- Whether a reference that nothing meets points to declarations of the name elsewhere. -/
  relatedCandidates : Bool
  deriving DecidableEq, Repr

namespace Json

/-- The name of an option. -/
def optionName? : Json → Option String
  | .string s => s
  | .object [(key, .null)] => key
  | _ => none

end Json

namespace ArrayBounds

/-- The name of a policy in settings. -/
def text : ArrayBounds → String
  | .declared => "declared"
  | .exactWhenUnbound => "exactWhenUnbound"

/-- The policy of a name. -/
def ofText? (s : String) : Option ArrayBounds :=
  [declared, exactWhenUnbound].find? (·.text == s)

/-- The policy of an option. -/
def ofJson? (j : Json) : Option ArrayBounds := j.optionName?.bind ofText?

end ArrayBounds

namespace Severity

/-- The severity of an option. -/
def ofJson? (j : Json) : Option Severity := j.optionName?.bind ofText?

/-- The severity that a text spells in JSON. -/
def parse? (s : String) : Option Severity := (Json.parse? s).bind ofJson?

end Severity

namespace Settings

/-- The settings of an analysis that is told nothing. -/
def default : Settings := ⟨.declared, .error, true⟩

instance : Inhabited Settings := ⟨default⟩

/-- Reads an optional value: the given one if it is missing, and nothing if it cannot be read. -/
def orElse? {α : Type} (missing : α) (read? : Json → Option α) : Option Json → Option α
  | none => some missing
  | some j => read? j

/-- The settings with the given values, where there are any. -/
def ofValues? (bounds severity related : Option Json) : Option Settings := do
  let bounds ← orElse? default.arrayBounds ArrayBounds.ofJson? bounds
  let severity ← orElse? default.ambiguousReferenceSeverity Severity.ofJson? severity
  let related ← orElse? default.relatedCandidates Json.bool? related
  return ⟨bounds, severity, related⟩

/-- The settings that a JSON value stands for. -/
def ofJson? : Json → Option Settings
  | .object fields => do
    let bounds ← Json.optionalField? "arrayBounds" fields
    let severity ← Json.optionalField? "ambiguousReferenceSeverity" fields
    let related ← Json.optionalField? "relatedCandidates" fields
    -- a key that is no text could be any key, so it is refused
    if fields.all (·.1.isSome) then ofValues? bounds severity related else none
  | .array elements =>
    if elements.length ≤ 3 then ofValues? elements[0]? elements[1]? elements[2]? else none
  | _ => none

/-- The settings that a text spells in JSON. -/
def parse? (s : String) : Option Settings := (Json.parse? s).bind ofJson?

end Settings

end Schemata
