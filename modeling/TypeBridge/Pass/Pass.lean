import TypeBridge.Pass.Phase

/-!
# A whole pass

The phases one after another, up to the first that fails.
-/

namespace TypeBridge

/-- What became of a pass. -/
structure Pass where
  /-- The completed phases, each with the state that it left. -/
  completed : List (Phase × Session)
  /-- The last state, or the phase that ended the pass and the reason. -/
  outcome : Except (Phase × PassFailure) Session

namespace Pass

/-- Run some phases from a state. -/
def run (session : Session) : List Phase → Pass
  | [] => ⟨[], .ok session⟩
  | phase :: rest =>
    match session.run phase with
    | .error failure => ⟨[], .error (phase, failure)⟩
    | .ok next =>
      let pass := run next rest
      ⟨(phase, next) :: pass.completed, pass.outcome⟩

/-- A pass over a model. -/
def ofModel (config : Config) (model : HostModel) : Pass :=
  run (.start config model) Phase.all

def finished (pass : Pass) : List Phase :=
  pass.completed.map (·.1)

/-- The phases that were begun. -/
def started (pass : Pass) : List Phase :=
  match pass.outcome with
  | .ok _ => pass.finished
  | .error (phase, _) => pass.finished ++ [phase]

end Pass

end TypeBridge
