import TypeBridge.Command.Run

/-!
# The program

Carries out file tasks on the file system and prints the outcome.
-/

namespace TypeBridge

/-- Carry out a file task on the file system. -/
def FileTask.perform {α : Type} : FileTask α → IO α
  | done result => return result
  | read path next => do
    let text ← try some <$> IO.FS.readFile path catch _ => pure none
    (next text).perform
  | write path text next => do
    let outcome ←
      try
        let folder := Path.parent path
        unless folder.isEmpty do IO.FS.createDirAll folder
        IO.FS.writeFile path text
        pure (Except.ok ())
      catch fault => pure (Except.error (WriteFault.refused (toString fault)))
    (next outcome).perform

end TypeBridge

/-- Answer the arguments, results on one stream and remarks on the other. -/
def main (args : List String) : IO UInt32 := do
  let outcome ← (TypeBridge.answerArguments args).perform
  IO.print outcome.results
  IO.eprint outcome.remarks
  return outcome.exit.toUInt32
