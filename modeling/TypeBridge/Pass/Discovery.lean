import TypeBridge.Pass.Session

/-!
# Discovering candidates

A declaration root carries the marker annotation or is assignable to a configured root.  A recipe
carries the recipe annotation.  Only visible types inside the allow-list become candidates; the
others are reported.
-/

namespace TypeBridge

/-- What a discovery finds. -/
structure Discovery where
  candidates : Candidates
  diagnostics : List Diagnostic
  deriving DecidableEq, Repr

namespace Discovery

def warning (type message : String) : Diagnostic where
  severity := .warning
  phase := "discover"
  message
  location := some type
  rule := none

def isRoot (config : Config) (model : HostModel) (type : HostType) : Bool :=
  anyNamed type.annotations config.marker ||
    config.roots.any (model.isAssignable type.name)

/-- Why a type that is marked is no candidate. -/
def obstacle? (config : Config) (type : HostType) : Option String :=
  if !type.visibility.isApi then some "skipping type that is not public"
  else if !config.allow.contains type.name then some "skipping type outside the allow-list"
  else none

/-- The warnings about configured roots that the model does not have. -/
def strayRoots (config : Config) (model : HostModel) : List Diagnostic :=
  (config.roots.filter (!model.contains ·)).map fun root =>
    warning root ("root type '" ++ root ++ "' is not in the model")

def scan (config : Config) (model : HostModel) : Discovery :=
  let marked := model.types.filter fun type => isRoot config model type || type.isRecipe
  let admitted := marked.filter fun type => (obstacle? config type).isNone
  let obstacles := marked.filterMap fun type =>
    (obstacle? config type).map (warning type.name)
  { candidates := {
      declarations := (admitted.filter (isRoot config model)).map (·.name)
      recipes := (admitted.filter (·.isRecipe)).map (·.name) }
    diagnostics := strayRoots config model ++ obstacles }

end Discovery

end TypeBridge
