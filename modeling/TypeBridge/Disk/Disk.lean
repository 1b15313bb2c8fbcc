import TypeBridge.Disk.Task
import TypeBridge.Text.CodeOrder

/-!
# Disks

Files and folders by their location, seen from a working folder, and what a file task does to them.
-/

namespace TypeBridge

/-- The names that lead from the working folder to an entry.  Outside the working folder a location
begins with steps outwards, or with the root. -/
abbrev Location := List String

/-- What is stored at a location. -/
inductive Stored where
  | folder
  | file (text : String)
  deriving DecidableEq, Repr

/-- Entries by location, each location at most once. -/
structure Disk where
  entries : List (Location × Stored)
  deriving DecidableEq, Repr

namespace Disk

def empty : Disk :=
  ⟨[]⟩

/-- The entry at a location.  The root, the working folder and what lies around it are folders. -/
def entry? (disk : Disk) (location : Location) : Option Stored :=
  if location = ["/"] || location.all (· == "..") then some .folder
  else disk.entries.lookup location

def isFolder (disk : Disk) (location : Location) : Bool :=
  disk.entry? location == some .folder

/-- Where a step outwards leads. -/
def outwards (location : Location) : Location :=
  if location = ["/"] then location
  else if location.all (· == "..") then location ++ [".."]
  else location.dropLast

/-- Where a piece of a path leads. -/
def step (location : Location) (piece : String) : Location :=
  if piece = "" || piece = "." then location
  else if piece = ".." then outwards location
  else location ++ [piece]

/-- Where a path begins. -/
def origin (path : String) : Location :=
  if Path.isAbsolute path then ["/"] else []

/-- One step out of a folder. -/
def stepFrom (disk : Disk) (location : Location) (piece : String) : Except WriteFault Location :=
  match disk.entry? location with
  | none => .error .missing
  | some (.file _) => .error .notAFolder
  | some .folder =>
    if Path.maxNameSize < piece.utf8ByteSize then .error .tooLong else .ok (step location piece)

/-- The location that a path leads to.  Every piece is a step out of a folder; at the end there may
be nothing yet. -/
def locate (disk : Disk) (path : String) : Except WriteFault Location :=
  if path.toList.contains '\x00' then .error .zeroInside
  else if Path.maxSize < path.utf8ByteSize then .error .tooLong
  else (Path.pieces path).foldlM disk.stepFrom (origin path)

def read? (disk : Disk) (path : String) : Option String :=
  match disk.locate path with
  | .ok location =>
    match disk.entry? location with
    | some (.file text) => some text
    | _ => none
  | .error _ => none

/-- Store an entry in place of what is at its location. -/
def put (disk : Disk) (location : Location) (entry : Stored) : Disk :=
  ⟨disk.entries.filter (·.1 != location) ++ [(location, entry)]⟩

/-- Make a folder, unless it is there. -/
def makeFolder (disk : Disk) (path : String) : Except WriteFault Disk := do
  let location ← disk.locate path
  match disk.entry? location with
  | none => return disk.put location .folder
  | some .folder => return disk
  | some (.file _) => throw .fileInTheWay

/-- Make a folder, given with the folders around it from the inside out.  They are made only if
something is missing on the way.  What has been made stays even when the rest fails. -/
def makeFolders (disk : Disk) : List String → Disk × Except WriteFault Unit
  | [] => (disk, .ok ())
  | path :: outer =>
    match disk.makeFolder path with
    | .ok made => (made, .ok ())
    | .error .missing =>
      match disk.makeFolders outer with
      | (made, .error fault) => (made, .error fault)
      | (made, .ok ()) =>
        match made.makeFolder path with
        | .ok all => (all, .ok ())
        | .error fault => (made, .error fault)
    | .error fault => (disk, .error fault)

/-- Store a text in a folder that is there. -/
def writeText (disk : Disk) (path text : String) : Except WriteFault Disk := do
  let location ← disk.locate path
  if Path.isEntry ((Path.pieces path).getLast?.getD "") && !disk.isFolder location then
    return disk.put location (.file text)
  else throw .isAFolder

/-- Write a file.  Folders that are made for it stay even when the file cannot be written. -/
def write (disk : Disk) (path text : String) : Disk × Except WriteFault Unit :=
  match disk.makeFolders (((Path.parent? path).map Path.outwards).getD []) with
  | (made, .error fault) => (made, .error fault)
  | (made, .ok ()) =>
    match made.writeText path text with
    | .error fault => (made, .error fault)
    | .ok written => (written, .ok ())

/-- Delete a file.  Folders stay. -/
def delete (disk : Disk) (path : String) : Disk :=
  match disk.locate path with
  | .ok location => ⟨disk.entries.filter fun (other, entry) =>
      other != location || entry == .folder⟩
  | .error _ => disk

/-- The paths of all files below the working folder, in code point order. -/
def files (disk : Disk) : List String :=
  Text.sorted (disk.entries.filterMap fun (location, entry) =>
    if entry == .folder || location.head? == some "/" || location.head? == some ".." then none
    else some ("/".intercalate location))

end Disk

namespace FileTask

def run {α : Type} (disk : Disk) : FileTask α → Disk × α
  | done result => (disk, result)
  | read path next => (next (disk.read? path)).run disk
  | write path text next =>
    let (written, outcome) := disk.write path text
    (next outcome).run written

/-- A second task begins on the disk that the first one leaves. -/
theorem run_bind {α β : Type} (disk : Disk) (task : FileTask α) (after : α → FileTask β) :
    (task.bind after).run disk = (after (task.run disk).2).run (task.run disk).1 := by
  induction task generalizing disk with
  | done result => rfl
  | read path next ih => exact ih (disk.read? path) disk
  | write path text next ih => exact ih (disk.write path text).2 (disk.write path text).1

end FileTask

end TypeBridge
