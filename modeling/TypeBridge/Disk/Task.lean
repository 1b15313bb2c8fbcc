import TypeBridge.Disk.Path

/-!
# File tasks

What a program wants to read and to write, step by step, apart from the disk that it happens on.
-/

namespace TypeBridge

/-- Why a file cannot be written. -/
inductive WriteFault where
  /-- Nothing is stored where a path goes through. -/
  | missing
  /-- A file stands where a folder has to be. -/
  | fileInTheWay
  /-- A file stands where a path goes through. -/
  | notAFolder
  /-- A folder stands where the file has to be. -/
  | isAFolder
  /-- A name or a path has too many bytes. -/
  | tooLong
  /-- A path holds the character that ends texts. -/
  | zeroInside
  | refused (reason : String)
  deriving DecidableEq, Repr

def WriteFault.message : WriteFault → String
  | .missing => "No such file or directory (os error 2)"
  | .fileInTheWay => "File exists (os error 17)"
  | .notAFolder => "Not a directory (os error 20)"
  | .isAFolder => "Is a directory (os error 21)"
  | .tooLong => "File name too long (os error 36)"
  | .zeroInside => "file name contained an unexpected NUL byte"
  | .refused reason => reason

/-- A task that reads and writes files and comes to a result. -/
inductive FileTask (α : Type) where
  | done (result : α)
  /-- Go on with the text of a file, or without it. -/
  | read (path : String) (next : Option String → FileTask α)
  /-- Write a file in a folder that is made where it is missing, and go on with the outcome. -/
  | write (path text : String) (next : Except WriteFault Unit → FileTask α)

namespace FileTask

def bind {α β : Type} (task : FileTask α) (after : α → FileTask β) : FileTask β :=
  match task with
  | done result => after result
  | read path next => .read path fun text => (next text).bind after
  | write path text next => .write path text fun outcome => (next outcome).bind after

theorem bind_done {α : Type} (task : FileTask α) : task.bind done = task := by
  induction task with
  | done result => rfl
  | read path next ih => exact congrArg (read path) (funext ih)
  | write path text next ih => exact congrArg (write path text) (funext ih)

theorem bind_bind {α β γ : Type} (task : FileTask α) (second : α → FileTask β)
    (third : β → FileTask γ) :
    (task.bind second).bind third = task.bind fun result => (second result).bind third := by
  induction task with
  | done result => rfl
  | read path next ih => exact congrArg (read path) (funext ih)
  | write path text next ih => exact congrArg (write path text) (funext ih)

instance : Monad FileTask where
  pure := done
  bind := bind

instance : LawfulMonad FileTask :=
  LawfulMonad.mk' FileTask bind_done (fun _ _ => rfl) bind_bind

def readFile (path : String) : FileTask (Option String) :=
  .read path .done

def writeFile (path text : String) : FileTask (Except WriteFault Unit) :=
  .write path text .done

end FileTask

end TypeBridge
