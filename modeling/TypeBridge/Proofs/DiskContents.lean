import TypeBridge.Disk.Disk
import TypeBridge.Proofs.Outcomes

/-!
# Disks as maps from locations to texts

A file that is written changes the text at one location.  Apart from that only folders are added, so
every path that led somewhere before still leads there.
-/

namespace TypeBridge

open Outcome

namespace Disk

variable {disk before after written : Disk} {location other : Location} {path text : String}

/-- The text of the file at a location. -/
def textAt? (disk : Disk) (location : Location) : Option String :=
  match disk.entry? location with
  | some (.file text) => some text
  | _ => none

theorem read?_eq_some_iff : disk.read? path = some text ↔
    ∃ location, disk.locate path = .ok location ∧ disk.textAt? location = some text := by
  unfold read?
  cases found : disk.locate path with
  | error fault => simp
  | ok location =>
    simp only [Except.ok.injEq, exists_eq_left']
    rfl

theorem lookup_cons (place : Location) (stored : Stored) (rest : List (Location × Stored)) :
    ((place, stored) :: rest).lookup other =
      if other = place then some stored else rest.lookup other := by
  by_cases here : other = place
  · simp [here]
  · have differs : (other == place) = false := by simp [here]
    simp [List.lookup_cons, here, differs]

theorem lookup_put (entries : List (Location × Stored)) (stored : Stored) :
    (entries.filter (·.1 != location) ++ [(location, stored)]).lookup other =
      if other = location then some stored else entries.lookup other := by
  induction entries with
  | nil => exact lookup_cons location stored []
  | cons first rest ih =>
    obtain ⟨place, before⟩ := first
    rw [lookup_cons]
    by_cases replaced : place = location
    · have dropped : (place != location) = false := by simp [replaced]
      rw [List.filter_cons, if_neg (by simp [dropped]), ih, replaced]
      by_cases here : other = location <;> simp [here]
    · have kept : (place != location) = true := by simp [replaced]
      rw [List.filter_cons, if_pos kept, List.cons_append, lookup_cons, ih]
      by_cases here : other = place
      · simp [here, replaced]
      · simp [here]

/-- What is put at a location is found there, and everything else where it was. -/
theorem entry?_put (free : disk.entry? location ≠ some .folder) (stored : Stored) :
    entry? (disk.put location stored) other =
      if other = location then some stored else disk.entry? other := by
  have inside : ¬ (location = ["/"] || location.all (· == "..")) = true := by
    intro outside
    apply free
    unfold entry?
    rw [if_pos outside]
  unfold entry?
  by_cases here : other = location
  · rw [here, if_neg inside, if_pos rfl]
    exact (lookup_put disk.entries stored).trans (if_pos rfl)
  · rw [if_neg here, put]
    dsimp only
    rw [lookup_put, if_neg here]

/-- More folders, and otherwise the same entries. -/
def GrowsTo (before after : Disk) : Prop :=
  ∀ location, after.entry? location = before.entry? location ∨
    before.entry? location = none ∧ after.entry? location = some .folder

namespace GrowsTo

theorem refl (disk : Disk) : disk.GrowsTo disk :=
  fun _ => .inl rfl

theorem trans {between : Disk} (first : before.GrowsTo between) (second : between.GrowsTo after) :
    before.GrowsTo after := by
  intro location
  rcases second location with same | ⟨nothing, folder⟩
  · rw [same]
    exact first location
  · rcases first location with same | ⟨-, folder'⟩
    · exact .inr ⟨same ▸ nothing, folder⟩
    · simp [folder'] at nothing

theorem entry?_eq_folder (grows : before.GrowsTo after)
    (folder : before.entry? location = some .folder) : after.entry? location = some .folder := by
  rcases grows location with same | ⟨nothing, -⟩
  · rw [same, folder]
  · simp [folder] at nothing

/-- No text is lost, changed or added. -/
theorem textAt? (grows : before.GrowsTo after) : after.textAt? = before.textAt? := by
  funext location
  unfold Disk.textAt?
  rcases grows location with same | ⟨nothing, folder⟩
  · rw [same]
  · rw [nothing, folder]

end GrowsTo

theorem stepFrom_eq_ok_iff {piece : String} : disk.stepFrom location piece = .ok other ↔
    disk.entry? location = some .folder ∧ piece.utf8ByteSize ≤ Path.maxNameSize ∧
      step location piece = other := by
  unfold stepFrom
  split
  · next nothing => simp [nothing]
  · next stored => simp [stored]
  · next folder =>
    by_cases long : Path.maxNameSize < piece.utf8ByteSize
    · have notShort : ¬ piece.utf8ByteSize ≤ Path.maxNameSize := by omega
      simp [long, notShort]
    · simp [folder, long, Nat.le_of_not_lt long]

/-- The folders of one disk are folders of another one. -/
def KeepsFolders (before after : Disk) : Prop :=
  ∀ location, before.entry? location = some .folder → after.entry? location = some .folder

theorem GrowsTo.keepsFolders (grows : before.GrowsTo after) : before.KeepsFolders after :=
  fun _ => grows.entry?_eq_folder

theorem KeepsFolders.trans {between : Disk} (first : before.KeepsFolders between)
    (second : between.KeepsFolders after) : before.KeepsFolders after :=
  fun location folder => second location (first location folder)

/-- A path leads to the same location as long as the folders on the way are there. -/
theorem KeepsFolders.locate (kept : before.KeepsFolders after)
    (found : before.locate path = .ok location) : after.locate path = .ok location := by
  have walk : ∀ (pieces : List String) (start : Location),
      pieces.foldlM before.stepFrom start = .ok location →
        pieces.foldlM after.stepFrom start = .ok location := by
    intro pieces
    induction pieces with
    | nil => exact fun _ walked => walked
    | cons piece rest ih =>
      intro start walked
      rw [List.foldlM_cons] at walked ⊢
      obtain ⟨next, stepped, walked⟩ := bind_eq_ok_iff.1 walked
      obtain ⟨folder, short, same⟩ := stepFrom_eq_ok_iff.1 stepped
      have stepped : after.stepFrom start piece = .ok next :=
        stepFrom_eq_ok_iff.2 ⟨kept start folder, short, same⟩
      exact bind_eq_ok_iff.2 ⟨next, stepped, ih next walked⟩
  unfold Disk.locate at found ⊢
  split at found
  · cases found
  split at found
  · cases found
  · next whole short =>
    rw [if_neg whole, if_neg short]
    exact walk _ _ found

theorem step_of_isEntry {piece : String} (isEntry : Path.isEntry piece = true) :
    step location piece = location ++ [piece] := by
  simp only [Path.isEntry, Bool.and_eq_true, bne_iff_ne] at isEntry
  obtain ⟨⟨notEmpty, notHere⟩, notOut⟩ := isEntry
  simp [step, notEmpty, notHere, notOut]

/-- A path that ends in the name of an entry leads to a location with this name. -/
theorem getLast?_of_locate (found : disk.locate path = .ok location)
    (isEntry : Path.isEntry ((Path.pieces path).getLast?.getD "") = true) :
    location.getLast? = (Path.pieces path).getLast? := by
  unfold locate at found
  split at found
  · cases found
  split at found
  · cases found
  have some : (Path.pieces path).getLast? ≠ none := by
    intro none
    simp [none, Path.isEntry] at isEntry
  obtain ⟨piece, last⟩ := Option.ne_none_iff_exists'.1 some
  obtain ⟨front, same⟩ := List.getLast?_eq_some_iff.1 last
  rw [last, Option.getD_some] at isEntry
  rw [same, List.foldlM_append] at found
  obtain ⟨around, -, found⟩ := bind_eq_ok_iff.1 found
  rw [List.foldlM_cons] at found
  obtain ⟨next, stepped, found⟩ := bind_eq_ok_iff.1 found
  obtain ⟨-, -, stepped⟩ := stepFrom_eq_ok_iff.1 stepped
  rw [step_of_isEntry isEntry] at stepped
  cases found
  rw [← stepped, last, List.getLast?_concat]

theorem growsTo_of_makeFolder {made : Disk} (makes : disk.makeFolder path = .ok made) :
    disk.GrowsTo made := by
  obtain ⟨location, -, makes⟩ := bind_eq_ok_iff.1 makes
  split at makes
  · next nothing =>
    cases makes
    intro other
    rw [entry?_put (by simp [nothing])]
    by_cases here : other = location
    · exact .inr ⟨here ▸ nothing, if_pos here⟩
    · exact .inl (if_neg here)
  · cases makes
    exact .refl disk
  · cases makes

theorem growsTo_makeFolders (disk : Disk) (paths : List String) :
    disk.GrowsTo (disk.makeFolders paths).1 := by
  induction paths generalizing disk with
  | nil => exact .refl disk
  | cons path outer ih =>
    unfold makeFolders
    split
    · next made makes => exact growsTo_of_makeFolder makes
    · split
      · next made fault makes =>
        have grows := ih disk
        rwa [makes] at grows
      · next made makes =>
        have grows := ih disk
        rw [makes] at grows
        split
        · next all makesLast => exact grows.trans (growsTo_of_makeFolder makesLast)
        · exact grows
    · exact .refl disk

/-- A file is stored at the location of its path, and nothing else is changed. -/
structure Stores (before : Disk) (path text : String) (location : Location) (after : Disk) :
    Prop where
  located : after.locate path = .ok location
  named : location.getLast? = (Path.pieces path).getLast?
  texts : ∀ other,
    after.textAt? other = if other = location then some text else before.textAt? other
  folders : before.KeepsFolders after

theorem writeText_eq_ok_iff : before.writeText path text = .ok after ↔
    ∃ location, before.locate path = .ok location ∧
      Path.isEntry ((Path.pieces path).getLast?.getD "") = true ∧
        before.entry? location ≠ some .folder ∧ after = before.put location (.file text) := by
  have allowed (location : Location) :
      (Path.isEntry ((Path.pieces path).getLast?.getD "") && !before.isFolder location) = true ↔
        Path.isEntry ((Path.pieces path).getLast?.getD "") = true ∧
          before.entry? location ≠ some .folder := by
    simp [isFolder]
  rw [writeText, bind_eq_ok_iff]
  constructor
  · rintro ⟨location, located, writes⟩
    split at writes
    · next free =>
      cases writes
      exact ⟨location, located, ((allowed location).1 free).1, ((allowed location).1 free).2, rfl⟩
    · cases writes
  · rintro ⟨location, located, isEntry, free, rfl⟩
    refine ⟨location, located, ?_⟩
    rw [if_pos ((allowed location).2 ⟨isEntry, free⟩)]
    rfl

theorem stores_of_writeText (writes : before.writeText path text = .ok after) :
    ∃ location, before.Stores path text location after := by
  obtain ⟨location, located, isEntry, free, rfl⟩ := writeText_eq_ok_iff.1 writes
  have folders : before.KeepsFolders (before.put location (.file text)) := by
    intro other folder
    have elsewhere : other ≠ location := by
      rintro rfl
      exact free folder
    rw [entry?_put free, if_neg elsewhere, folder]
  refine ⟨location, folders.locate located, getLast?_of_locate located isEntry, ?_, folders⟩
  intro other
  unfold textAt?
  rw [entry?_put free]
  by_cases here : other = location
  · simp [here]
  · simp [here]

/-- A file that is written is stored, in folders that are made for it. -/
theorem stores_of_write (writes : before.write path text = (after, .ok ())) :
    ∃ location, before.Stores path text location after := by
  unfold write at writes
  split at writes
  · cases writes
  · next made makes =>
    split at writes
    · cases writes
    · next written stored =>
      cases writes
      have grows := before.growsTo_makeFolders (((Path.parent? path).map Path.outwards).getD [])
      rw [makes] at grows
      obtain ⟨location, stores⟩ := stores_of_writeText stored
      refine ⟨location, stores.located, stores.named, ?_, grows.keepsFolders.trans stores.folders⟩
      rw [← grows.textAt?]
      exact stores.texts

/-- A file that cannot be written leaves all files as they are. -/
theorem growsTo_of_write {fault : WriteFault}
    (fails : before.write path text = (after, .error fault)) : before.GrowsTo after := by
  unfold write at fails
  split at fails
  · next made fault' makes =>
    cases fails
    have grows := before.growsTo_makeFolders (((Path.parent? path).map Path.outwards).getD [])
    rwa [makes] at grows
  · next made makes =>
    split at fails
    · cases fails
      have grows := before.growsTo_makeFolders (((Path.parent? path).map Path.outwards).getD [])
      rwa [makes] at grows
    · cases fails

/-- Two disks with the same folders. -/
def SameFolders (first second : Disk) : Prop :=
  ∀ location, first.entry? location = some .folder ↔ second.entry? location = some .folder

theorem SameFolders.symm {first second : Disk} (same : first.SameFolders second) :
    second.SameFolders first :=
  fun location => (same location).symm

theorem SameFolders.trans {first second third : Disk} (same : first.SameFolders second)
    (same' : second.SameFolders third) : first.SameFolders third :=
  fun location => (same location).trans (same' location)

theorem SameFolders.keepsFolders {first second : Disk} (same : first.SameFolders second) :
    first.KeepsFolders second :=
  fun location => (same location).1

/-- A file that is written is no folder, neither before nor afterwards. -/
theorem sameFolders_of_writeText (writes : before.writeText path text = .ok after) :
    before.SameFolders after := by
  obtain ⟨location, -, -, free, rfl⟩ := writeText_eq_ok_iff.1 writes
  intro other
  rw [entry?_put free]
  by_cases here : other = location
  · rw [if_pos here, here]
    simp [free]
  · rw [if_neg here]

/-- Whether a file can be written in a folder that is there depends on the folders only. -/
theorem SameFolders.exists_writeText {first second : Disk} (same : first.SameFolders second)
    (writes : ∃ after, first.writeText path text = .ok after) :
    ∃ after, second.writeText path text = .ok after := by
  obtain ⟨after, writes⟩ := writes
  obtain ⟨location, located, isEntry, free, -⟩ := writeText_eq_ok_iff.1 writes
  exact ⟨_, writeText_eq_ok_iff.2 ⟨location, same.keepsFolders.locate located, isEntry,
    (same location).not.1 free, rfl⟩⟩

theorem makeFolder_eq_self (located : disk.locate path = .ok location)
    (folder : disk.entry? location = some .folder) : disk.makeFolder path = .ok disk := by
  simp only [makeFolder, located, bind, Except.bind, folder]
  rfl

/-- A folder that was made is there. -/
theorem exists_folder_of_makeFolder {made : Disk} (makes : disk.makeFolder path = .ok made) :
    ∃ location, made.locate path = .ok location ∧ made.entry? location = some .folder := by
  have grows := growsTo_of_makeFolder makes
  obtain ⟨location, located, makes⟩ := bind_eq_ok_iff.1 makes
  refine ⟨location, grows.keepsFolders.locate located, ?_⟩
  split at makes
  · next nothing =>
    cases makes
    rw [entry?_put (by simp [nothing]), if_pos rfl]
  · next folder =>
    cases makes
    exact folder
  · cases makes

theorem exists_folder_of_makeFolders {made : Disk} {outer : List String}
    (makes : disk.makeFolders (path :: outer) = (made, .ok ())) :
    ∃ location, made.locate path = .ok location ∧ made.entry? location = some .folder := by
  unfold makeFolders at makes
  split at makes
  · next first =>
    cases makes
    exact exists_folder_of_makeFolder first
  · split at makes
    · cases makes
    · split at makes
      · next last =>
        cases makes
        exact exists_folder_of_makeFolder last
      · cases makes
  · cases makes

/-- Folders that were made need not be made again. -/
theorem makeFolders_eq_self {made : Disk} {paths : List String}
    (makes : disk.makeFolders paths = (made, .ok ())) (kept : made.KeepsFolders after) :
    after.makeFolders paths = (after, .ok ()) := by
  cases paths with
  | nil => rfl
  | cons path outer =>
    obtain ⟨location, located, folder⟩ := exists_folder_of_makeFolders makes
    have there := makeFolder_eq_self (kept.locate located) (kept location folder)
    rw [makeFolders, there]

/-- The folders that are made for a file. -/
def foldersOf (path : String) : List String :=
  ((Path.parent? path).map Path.outwards).getD []

/-- Once its folders are made, writing a file means storing its text. -/
theorem write_of_makeFolders {made : Disk}
    (makes : disk.makeFolders (foldersOf path) = (made, .ok ())) :
    disk.write path text = match made.writeText path text with
      | .error fault => (made, .error fault)
      | .ok after => (after, .ok ()) := by
  rw [foldersOf] at makes
  cases stored : made.writeText path text with
  | error fault => simp only [write, makes, stored]
  | ok after => simp only [write, makes, stored]

theorem write_eq_ok_iff {made : Disk} (makes : disk.makeFolders (foldersOf path) = (made, .ok ())) :
    disk.write path text = (after, .ok ()) ↔ made.writeText path text = .ok after := by
  rw [write_of_makeFolders makes]
  cases made.writeText path text <;> simp

end Disk

end TypeBridge
