import TypeBridge.Pass.Phase
import TypeBridge.Pass.Rendering

/-!
# Steps in any order

Phases and renderings, taken one after another over one state that persists.  A step writes to the
state as it goes and may fail on its way; the next step begins with what it leaves.
-/

namespace TypeBridge

/-- Work on a state, which keeps what was written to it when the work fails. -/
abbrev SessionTask := ExceptT PassFailure (StateM Session)

namespace SessionTask

/-- Ask the state for something that it may not have. -/
def ask {α : Type} (find : Session → Except PassFailure α) : SessionTask α := do
  liftExcept (find (← get))
where
  liftExcept (result : Except PassFailure α) : SessionTask α :=
    ExceptT.mk (pure result)

def report (found : List Diagnostic) : SessionTask Unit :=
  modify fun session => { session with diagnostics := session.diagnostics ++ found }

def discover : SessionTask Unit := do
  let session ← get
  let discovery := Discovery.scan session.config session.model
  report discovery.diagnostics
  modify fun session => { session with candidates? := some discovery.candidates }

def resolve : SessionTask Unit := do
  let candidates ← ask (·.candidates)
  let graph ← ask fun session =>
    (HostView.closure ⟨session.model, session.config.allow⟩ candidates.declarations).mapError .fatal
  modify fun session => { session with graph? := some graph }

def arrange : SessionTask Unit := do
  let graph ← ask (·.graph)
  let order ← ask fun _ => graph.emissionOrder.mapError .fatal
  modify fun session => { session with order? := some order }

def extract (rules : List RecipeRule) : SessionTask Unit := do
  let graph ← ask (·.graph)
  let candidates ← ask (·.candidates)
  let session ← get
  let extraction := Extraction.ofNames ⟨session.model, graph⟩ rules candidates.recipes
  report extraction.diagnostics
  modify fun session => { session with recipes := extraction.recipes }

end SessionTask

/-- What can be done with the state of a pass. -/
inductive Step where
  | discover
  | resolve
  | order
  | extract (rules : List RecipeRule)
  | render

namespace Step

/-- The work of a step, and the rendering if that is what it makes. -/
def task : Step → SessionTask (Option Rendering)
  | discover => do SessionTask.discover; return none
  | resolve => do SessionTask.resolve; return none
  | order => do SessionTask.arrange; return none
  | extract rules => do SessionTask.extract rules; return none
  | render => do return some (← SessionTask.ask Rendering.ofSession)

/-- Take a step: its outcome, and the state that it leaves. -/
def perform (step : Step) (session : Session) :
    Except PassFailure (Option Rendering) × Session :=
  step.task.run.run session

/-- The rules of a step that extracts recipes. -/
def rules? : Step → Option (List RecipeRule)
  | extract rules => some rules
  | _ => none

end Step

/-- The state after some steps, of which any may fail. -/
def Session.through (session : Session) (steps : List Step) : Session :=
  steps.foldl (fun session step => (step.perform session).2) session

end TypeBridge
