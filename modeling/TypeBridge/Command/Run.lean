import TypeBridge.Command.Help
import TypeBridge.Command.Report
import TypeBridge.Pass.Pass
import TypeBridge.Pass.Record
import TypeBridge.Project.Project

/-!
# Running commands

Commands as file tasks that come to an outcome.
-/

namespace TypeBridge

def versionLine : String := "glot 0.1.0"

/-- Where the records of phases are written. -/
def recordFolder (output : String) : String :=
  Path.join output ".glot"

/-- Write the records of some phases, up to the first that cannot be written. -/
def storeRecords (folder : String) : List (Phase × Session) → ExceptT WriteFault FileTask Unit
  | [] => pure ()
  | (phase, session) :: rest => do
    let path := Path.join folder (phase.name ++ ".json")
    ExceptT.mk (FileTask.writeFile path (session.record phase).document)
    storeRecords folder rest

namespace Command

/-- The result of a pass and its rendering. -/
def renderPass (pass : Pass) : Except PassFailure (Session × Rendering) :=
  match pass.outcome with
  | .error (_, failure) => .error failure
  | .ok session => (Rendering.ofSession session).map fun rendering => (session, rendering)

/-- Go on with a project, or report why it cannot be opened. -/
def withProject (config : String) (use : Project → FileTask Outcome) : FileTask Outcome := do
  match ← Project.opening config with
  | .error error => return .fatal error.message
  | .ok project => use project

def listProject (project : Project) : Outcome :=
  let discovery := Discovery.scan project.config project.model
  ⟨0, Report.candidates discovery.candidates.declarations discovery.candidates.recipes
    discovery.diagnostics⟩

def checkProject (project : Project) : Outcome :=
  match renderPass (.ofModel project.config project.model) with
  | .error failure => .fatal failure.message
  | .ok (session, rendering) =>
    let diagnostics := session.diagnostics ++ rendering.diagnostics
    ⟨Report.status diagnostics, Report.verdict project.path diagnostics⟩

/-- Generate the files of a project below a folder.  Everything is rendered before the first file
is written; only the records of phases are written earlier. -/
def generateProject (folder : String) (dryRun recorded : Bool) (project : Project) :
    FileTask Outcome := do
  let pass := Pass.ofModel project.config project.model
  let records := if recorded then pass.completed else []
  if let .error fault ← (storeRecords (recordFolder folder) records).run then
    return .fatal fault.message
  match renderPass pass with
  | .error failure => return .fatal failure.message
  | .ok (session, rendering) =>
    let diagnostics := session.diagnostics ++ rendering.diagnostics
    let exit := Report.status diagnostics
    let below := Report.findings diagnostics
    if dryRun then return ⟨exit, Report.preview rendering.artifacts ++ below⟩
    match ← rendering.store folder with
    | .error fault => return .fatal fault.message
    | .ok changes =>
      let shown := if recorded then some (recordFolder folder) else none
      return ⟨exit, Report.generation folder rendering changes shown ++ below⟩

def run : Command → FileTask Outcome
  | generate config output dryRun recorded =>
    withProject config fun project =>
      generateProject (output.getD project.outputFolder) dryRun recorded project
  | check config => withProject config fun project => return checkProject project
  | list config => withProject config fun project => return listProject project
  | completions shell => return .misuse ("error: nothing completes words for " ++ shell.name)

end Command

def answerArguments (args : List String) : FileTask Outcome :=
  match Request.ofArguments? args with
  | none => return .misuse "error: the arguments make no sense; try --help"
  | some .version => return ⟨0, [.result versionLine]⟩
  | some (.help topic) => return ⟨0, topic.page.lines.map .result⟩
  | some (.run command) => command.run

end TypeBridge
