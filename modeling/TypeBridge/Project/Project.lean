import TypeBridge.Config
import TypeBridge.Disk.Task
import TypeBridge.Host.HostModel

/-!
# Projects

A configuration file together with the snapshots that it lists, loaded from disk.
-/

namespace TypeBridge

structure Project where
  /-- The path of the configuration file. -/
  path : String
  config : Config
  model : HostModel

/-- A task that reads input files. -/
abbrev InputTask := ExceptT InputError FileTask

namespace Project

/-- The folder of the configuration file. -/
def root (project : Project) : String :=
  Path.parent project.path

/-- The folder of the generated files. -/
def outputFolder (project : Project) : String :=
  Path.join project.root project.config.output

/-- Read a file that has to be there. -/
def readInput (path : String) : InputTask String :=
  ExceptT.mk do
    match ← FileTask.readFile path with
    | some text => return .ok text
    | none => return .error (.unreadable path)

/-- Read some files, each with its path. -/
def readInputs : List String → InputTask (List (String × String))
  | [] => pure []
  | path :: rest => do
    let text ← readInput path
    let others ← readInputs rest
    return (path, text) :: others

/-- Open a project.  All snapshots are read before the first one is understood. -/
def load (path : String) : InputTask Project := do
  let text ← readInput path
  let config ← liftExcept (Config.read path text)
  let sources ← readInputs (config.models.map (Path.join (Path.parent path)))
  let model ← liftExcept (HostModel.ofSources sources)
  return ⟨path, config, model⟩
where
  liftExcept {α : Type} (result : Except InputError α) : InputTask α :=
    ExceptT.mk (pure result)

/-- Open a project, as a task with two outcomes. -/
def opening (path : String) : FileTask (Except InputError Project) :=
  (load path).run

end Project

end TypeBridge
