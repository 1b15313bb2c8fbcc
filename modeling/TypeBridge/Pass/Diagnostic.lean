/-!
# Diagnostics

Findings that do not end a pass.
-/

namespace TypeBridge

/-- How grave a finding is. -/
inductive Severity where
  | error
  | warning
  | info
  deriving DecidableEq, Repr

def Severity.word : Severity → String
  | .error => "error"
  | .warning => "warning"
  | .info => "info"

/-- A finding of a phase. -/
structure Diagnostic where
  severity : Severity
  phase : String
  message : String
  /-- The type that the finding is about. -/
  location : Option String
  /-- The rule that was broken. -/
  rule : Option String
  deriving DecidableEq, Repr

/-- The line that reports a finding. -/
def Diagnostic.text (diagnostic : Diagnostic) : String :=
  let rule := (diagnostic.rule.map fun rule => "[" ++ rule ++ "]").getD ""
  let place := (diagnostic.location.map fun location => " (at " ++ location ++ ")").getD ""
  diagnostic.severity.word ++ rule ++ ": " ++ diagnostic.message ++ place

end TypeBridge
