import TypeBridge.Closure.Closure
import TypeBridge.Config
import TypeBridge.Graph.EmissionOrder
import TypeBridge.Recipe.Extraction

/-!
# The state of a pass

A pass works on a configuration and a host model, and fills in what it finds out phase by phase.
-/

namespace TypeBridge

/-- The types that a pass starts from, in model order. -/
structure Candidates where
  /-- The roots of the declaration closure. -/
  declarations : List String
  recipes : List String
  deriving DecidableEq, Repr

/-- What some phase has to find out before a later one can begin. -/
inductive Finding where
  | candidates
  | graph
  | order
  deriving DecidableEq, Repr

/-- Why a pass cannot go on. -/
inductive PassFailure where
  | fatal (error : PassError)
  | missing (finding : Finding)
  deriving DecidableEq, Repr

def Finding.message : Finding → String
  | .candidates => "candidates not set - did DiscoverPhase run?"
  | .graph => "type graph not set - did ResolvePhase run?"
  | .order => "declaration order not set - did OrderPhase run?"

def PassFailure.message : PassFailure → String
  | .fatal error => error.message
  | .missing finding => finding.message

/-- The state of a pass. -/
structure Session where
  config : Config
  model : HostModel
  candidates? : Option Candidates
  graph? : Option TypeGraph
  order? : Option EmissionOrder
  recipes : List RecipeSchema
  diagnostics : List Diagnostic

namespace Session

def start (config : Config) (model : HostModel) : Session :=
  ⟨config, model, none, none, none, [], []⟩

/-- The candidates, once they are found. -/
def candidates (session : Session) : Except PassFailure Candidates :=
  session.candidates?.elim (.error (.missing .candidates)) .ok

/-- The type graph, once it is resolved. -/
def graph (session : Session) : Except PassFailure TypeGraph :=
  session.graph?.elim (.error (.missing .graph)) .ok

/-- The emission order, once it is found. -/
def order (session : Session) : Except PassFailure EmissionOrder :=
  session.order?.elim (.error (.missing .order)) .ok

/-- How many findings there are of some severity. -/
def count (session : Session) (severity : Severity) : Nat :=
  session.diagnostics.countP (·.severity == severity)

end Session

end TypeBridge
