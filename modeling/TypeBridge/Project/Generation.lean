import TypeBridge.Disk.Task
import TypeBridge.Pass.Rendering

/-!
# Writing generated files

A file is written only when its content changes.
-/

namespace TypeBridge

/-- What became of a file. -/
inductive Change where
  | created
  | updated
  | unchanged
  deriving DecidableEq, Repr

/-- What became of each generated file, in the order of their generation. -/
structure ChangeList where
  changes : List (String × Change)
  deriving DecidableEq, Repr

namespace ChangeList

/-- The files that a change happened to. -/
def having (list : ChangeList) (change : Change) : List String :=
  (list.changes.filter (·.2 == change)).map (·.1)

def written (list : ChangeList) : Nat :=
  (list.having .created).length + (list.having .updated).length

end ChangeList

/-- What storing a text in place of another one comes to. -/
def Change.between (before : Option String) (after : String) : Change :=
  match before with
  | none => .created
  | some text => if text = after then .unchanged else .updated

namespace Artifact

/-- Write a file below a folder unless it is up to date. -/
def store (folder : String) (artifact : Artifact) : ExceptT WriteFault FileTask Change :=
  ExceptT.mk do
    let path := Path.join folder artifact.path
    let change := Change.between (← FileTask.readFile path) artifact.content
    if change = .unchanged then return .ok change
    match ← FileTask.writeFile path artifact.content with
    | .ok () => return .ok change
    | .error fault => return .error fault

/-- Write some files, up to the first that cannot be written. -/
def storeAll (folder : String) : List Artifact → ExceptT WriteFault FileTask ChangeList
  | [] => pure ⟨[]⟩
  | artifact :: rest => do
    let change ← artifact.store folder
    let others ← storeAll folder rest
    return ⟨(artifact.path, change) :: others.changes⟩

end Artifact

/-- Write the files of a rendering below a folder. -/
def Rendering.store (folder : String) (rendering : Rendering) :
    FileTask (Except WriteFault ChangeList) :=
  (Artifact.storeAll folder rendering.artifacts).run

end TypeBridge
