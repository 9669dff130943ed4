/-!
# Severities
-/

namespace Schemata

/-- How grave a finding is. -/
inductive Severity where
  | error
  | warning
  | info
  | hint
  deriving DecidableEq, Repr, Inhabited

namespace Severity

/-- The name of a severity in settings and reports. -/
def text : Severity → String
  | .error => "error"
  | .warning => "warning"
  | .info => "info"
  | .hint => "hint"

/-- The number of a severity in the language server protocol. -/
def protocolNumber : Severity → Nat
  | .error => 1
  | .warning => 2
  | .info => 3
  | .hint => 4

/-- The severity of a name. -/
def ofText? (s : String) : Option Severity :=
  [error, warning, info, hint].find? (·.text == s)

@[simp] theorem ofText?_text (s : Severity) : ofText? s.text = some s := by cases s <;> decide

end Severity

end Schemata
