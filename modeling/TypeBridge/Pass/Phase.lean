import TypeBridge.Pass.Discovery

/-!
# The phases of a pass

Each phase turns one state of a pass into the next, or ends the pass.
-/

namespace TypeBridge

inductive Phase where
  | discover
  | resolve
  | order
  | extract
  deriving DecidableEq, Repr

namespace Phase

/-- All phases in the order of a pass. -/
def all : List Phase :=
  [discover, resolve, order, extract]

def name : Phase → String
  | discover => "discover"
  | resolve => "resolve"
  | order => "order"
  | extract => "extract"

def description : Phase → String
  | discover => "Find declaration roots and recipe candidates"
  | resolve => "Resolve the transitive type closure of the declaration roots"
  | order => "Compute a deterministic topological emission order"
  | extract => "Build recipe schemas, skipping recipes that break a rule"

end Phase

namespace Session

/-- Find the candidates. -/
def discover (session : Session) : Session :=
  let discovery := Discovery.scan session.config session.model
  { session with
    candidates? := some discovery.candidates
    diagnostics := session.diagnostics ++ discovery.diagnostics }

/-- Resolve the closure of the declaration roots. -/
def resolve (session : Session) : Except PassFailure Session := do
  let candidates ← session.candidates
  let view : HostView := ⟨session.model, session.config.allow⟩
  let graph ← (view.closure candidates.declarations).mapError .fatal
  return { session with graph? := some graph }

/-- Find the emission order. -/
def arrange (session : Session) : Except PassFailure Session := do
  let graph ← session.graph
  let order ← graph.emissionOrder.mapError .fatal
  return { session with order? := some order }

/-- Extract the recipes that keep some rules, in place of the recipes before. -/
def extract (rules : List RecipeRule) (session : Session) : Except PassFailure Session := do
  let graph ← session.graph
  let candidates ← session.candidates
  let extraction := Extraction.ofNames ⟨session.model, graph⟩ rules candidates.recipes
  return { session with
    recipes := extraction.recipes
    diagnostics := session.diagnostics ++ extraction.diagnostics }

def run (session : Session) : Phase → Except PassFailure Session
  | .discover => .ok session.discover
  | .resolve => session.resolve
  | .order => session.arrange
  | .extract => session.extract RecipeRule.all

end Session

end TypeBridge
