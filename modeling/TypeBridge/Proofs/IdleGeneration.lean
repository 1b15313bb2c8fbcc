import TypeBridge.Command.Run
import TypeBridge.Proofs.Regeneration

/-!
# Runs that generate nothing

A run that shows its files, or fails before it writes them, touches the disk only where it records
its phases.  Which records it writes depends on the disk before the run.
-/

namespace TypeBridge

namespace Path

/-- A name behind a path does not change how the path begins. -/
theorem anchored_append_slash {front : List Char} (nonempty : front ≠ []) (name : List Char) :
    anchored (front ++ '/' :: name) = ((anchored front).1, (anchored front).2 ++ '/' :: name) := by
  cases front with
  | nil => exact absurd rfl nonempty
  | cons c rest =>
    by_cases root : c = '/'
    · simp [anchored, root]
    · by_cases dot : c = '.'
      · cases rest with
        | nil => simp [anchored, dot]
        | cons d others => by_cases slash : d = '/' <;> simp [anchored, dot, slash]
      · simp [anchored, root, dot]

/-- The enclosing folder of an entry depends only on what is in front of the entry. -/
theorem parent?_append_slash {front name : String} (nonempty : front.toList ≠ [])
    (slashless : '/' ∉ name.toList) (entry : isEntry name = true) :
    parent? (front ++ "/" ++ name) = some (String.ofList ((anchored front.toList).1 ++
      ['/'].intercalate (trimmed ((anchored front.toList).2.splitOn '/')))) := by
  have chars : (front ++ "/" ++ name).toList = front.toList ++ '/' :: name.toList := by simp
  have leads : (name.toList == [] || name.toList == ['.']) = false := by
    simp only [isEntry, Bool.and_eq_true, bne_iff_ne] at entry
    obtain ⟨⟨notEmpty, notHere⟩, -⟩ := entry
    simp only [Bool.or_eq_false_iff, beq_eq_false_iff_ne]
    refine ⟨fun same => notEmpty (String.toList_inj.1 same), fun same => notHere ?_⟩
    exact String.toList_inj.1 same
  have kept (pieces : List (List Char)) :
      trimmed (pieces ++ [name.toList]) = pieces ++ [name.toList] := by
    rw [trimmed, List.reverse_append, List.reverse_singleton, List.singleton_append,
      List.dropWhile_cons_of_neg (by rw [Bool.not_eq_true]; exact leads), List.reverse_cons,
      List.reverse_reverse]
  unfold parent?
  rw [chars, anchored_append_slash nonempty]
  dsimp only
  rw [List.splitOn_append_cons_self, List.splitOn_eq_singleton slashless, kept]
  split
  · next nothing => simp at nothing
  · rw [List.dropLast_concat]

end Path

section

variable {folder : String} {disk before after : Disk} {record : Phase × Session}
  {records : List (Phase × Session)}

/-- The record of a phase as a file in the folder of records. -/
def recordFile (record : Phase × Session) : Artifact :=
  ⟨record.1.name ++ ".json", (record.2.record record.1).document⟩

theorem run_storeRecords_cons :
    (storeRecords folder (record :: records)).run.run before =
      match before.write ((recordFile record).placedIn folder) (recordFile record).content with
      | (next, .error fault) => (next, .error fault)
      | (next, .ok ()) => (storeRecords folder records).run.run next := by
  obtain ⟨phase, session⟩ := record
  rw [storeRecords, ExceptT.run_bind, ExceptT.run_mk, FileTask.run_writeFile_bind]
  dsimp only [recordFile, Artifact.placedIn]
  cases before.write (Path.join folder (phase.name ++ ".json")) (session.record phase).document with
  | mk next outcome => cases outcome <;> rfl

/-- The records that are written, up to the first that cannot be written. -/
def recordsWritten (folder : String) (disk : Disk) (records : List (Phase × Session)) :
    List Artifact :=
  (records.map recordFile).takeWhile fun file =>
    (disk.write (file.placedIn folder) file.content).2.isOk

theorem Artifact.AreStored.of_growsTo_before {artifacts : List Artifact} {made : Disk}
    (grows : before.GrowsTo made) (stored : AreStored folder artifacts made after) :
    AreStored folder artifacts before after where
  stored := stored.stored
  others other free := (stored.others other free).trans (congrFun grows.textAt? other)
  folders := grows.keepsFolders.trans stored.folders

/-- If the first record cannot be written, nothing is stored. -/
theorem areStored_of_refused {current : Disk}
    (refused : ∀ next, disk.write ((recordFile record).placedIn folder)
      (recordFile record).content ≠ (next, .ok ()))
    (refusedHere : ∀ next, current.write ((recordFile record).placedIn folder)
      (recordFile record).content ≠ (next, .ok ())) :
    Artifact.AreStored folder (recordsWritten folder disk (record :: records)) current
      ((storeRecords folder (record :: records)).run.run current).1 := by
  have none : recordsWritten folder disk (record :: records) = [] := by
    apply List.takeWhile_cons_of_neg
    cases written : disk.write ((recordFile record).placedIn folder)
        (recordFile record).content with
    | mk next outcome =>
      cases outcome with
      | ok _ => exact absurd written (refused next)
      | error fault => simp [Except.isOk, Except.toBool]
  rw [none, run_storeRecords_cons]
  cases written : current.write ((recordFile record).placedIn folder)
      (recordFile record).content with
  | mk next outcome =>
    cases outcome with
    | ok _ => exact absurd written (refusedHere next)
    | error fault => exact .of_growsTo (Disk.growsTo_of_write written)

/-- What writing records comes to once their folder is made. -/
theorem areStored_of_makeFolders {folders : List String} {made current : Disk}
    (makes : disk.makeFolders folders = (made, .ok ())) (same : made.SameFolders current)
    (siblings : ∀ record ∈ records,
      Disk.foldersOf ((recordFile record).placedIn folder) = folders)
    (distinct : (records.map fun record => Path.last (recordFile record).path).Nodup) :
    Artifact.AreStored folder (recordsWritten folder disk records) current
      ((storeRecords folder records).run.run current).1 := by
  induction records generalizing current with
  | nil => exact .of_growsTo (.refl current)
  | cons record rest ih =>
    obtain ⟨fresh, distinct⟩ := List.nodup_cons.1 distinct
    have here : Disk.foldersOf ((recordFile record).placedIn folder) = folders :=
      siblings record List.mem_cons_self
    rw [← here] at makes
    have makesNone := Disk.makeFolders_eq_self makes same.keepsFolders
    by_cases writable : ∃ next, current.writeText ((recordFile record).placedIn folder)
        (recordFile record).content = .ok next
    · obtain ⟨next, writes⟩ := writable
      have written := (Disk.write_eq_ok_iff makesNone).2 writes
      obtain ⟨first, writesFirst⟩ := same.symm.exists_writeText ⟨next, writes⟩
      have allowed : (disk.write ((recordFile record).placedIn folder)
          (recordFile record).content).2.isOk = true := by
        rw [(Disk.write_eq_ok_iff makes).2 writesFirst]
        rfl
      have taken : recordsWritten folder disk (record :: rest) =
          recordFile record :: recordsWritten folder disk rest :=
        List.takeWhile_cons_of_pos allowed
      obtain ⟨location, stores⟩ := Disk.stores_of_writeText writes
      have later := ih (same.trans (Disk.sameFolders_of_writeText writes))
        (fun other listed => siblings other (List.mem_cons_of_mem _ listed)) distinct
      rw [taken, run_storeRecords_cons, written]
      refine .cons (.of_stores stores) ?_ stores.folders later ?_
      · intro other elsewhere
        rw [stores.texts, if_neg elsewhere]
      · intro member
        obtain ⟨file, listed, named⟩ := List.mem_map.1 member
        obtain ⟨other, known, rfl⟩ := List.mem_map.1 ((List.takeWhile_sublist _).subset listed)
        exact fresh (List.mem_map.2 ⟨other, known, named⟩)
    · have refused : ∀ next, disk.write ((recordFile record).placedIn folder)
          (recordFile record).content ≠ (next, .ok ()) := by
        intro next written
        exact writable (same.exists_writeText ⟨next, (Disk.write_eq_ok_iff makes).1 written⟩)
      have refusedHere : ∀ next, current.write ((recordFile record).placedIn folder)
          (recordFile record).content ≠ (next, .ok ()) := by
        intro next written
        exact writable ⟨next, (Disk.write_eq_ok_iff makesNone).1 written⟩
      exact areStored_of_refused refused refusedHere

/-- The records of a run are siblings with different names, so they do not replace each other. -/
theorem areStored_of_storeRecords {folders : List String}
    (siblings : ∀ record ∈ records,
      Disk.foldersOf ((recordFile record).placedIn folder) = folders)
    (distinct : (records.map fun record => Path.last (recordFile record).path).Nodup) :
    Artifact.AreStored folder (recordsWritten folder disk records) disk
      ((storeRecords folder records).run.run disk).1 := by
  cases records with
  | nil => exact .of_growsTo (.refl disk)
  | cons record rest =>
    have here : Disk.foldersOf ((recordFile record).placedIn folder) = folders :=
      siblings record List.mem_cons_self
    cases makes : disk.makeFolders folders with
    | mk made outcome =>
      cases outcome with
      | ok _ =>
        -- the first record makes the folder, and could as well find it
        have makesHere := makes
        rw [← here] at makesHere
        have makesNone := Disk.makeFolders_eq_self makesHere fun _ folder => folder
        have found : ((storeRecords folder (record :: rest)).run.run disk) =
            ((storeRecords folder (record :: rest)).run.run made) := by
          rw [run_storeRecords_cons, run_storeRecords_cons, Disk.write_of_makeFolders makesHere,
            Disk.write_of_makeFolders makesNone]
        rw [found]
        have grows := disk.growsTo_makeFolders folders
        rw [makes] at grows
        exact .of_growsTo_before grows
          (areStored_of_makeFolders makes (fun _ => Iff.rfl) siblings distinct)
      | error fault =>
        have refused : ∀ next, disk.write ((recordFile record).placedIn folder)
            (recordFile record).content ≠ (next, .ok ()) := by
          intro next written
          rw [Disk.write, ← Disk.foldersOf, here, makes] at written
          cases written
        exact areStored_of_refused refused refused

end

namespace Phase

theorem recordName_inj {first second : Phase}
    (same : first.name ++ ".json" = second.name ++ ".json") : first = second := by
  cases first <;> cases second <;> first | rfl | exact absurd same (by decide)

theorem slash_notMem_recordName (phase : Phase) : '/' ∉ (phase.name ++ ".json").toList := by
  cases phase <;> decide

theorem isEntry_recordName (phase : Phase) : Path.isEntry (phase.name ++ ".json") = true := by
  cases phase <;> decide

theorem not_isAbsolute_recordName (phase : Phase) :
    Path.isAbsolute (phase.name ++ ".json") = false := by
  cases phase <;> decide

end Phase

/-- A pass completes each phase at most once, in their order. -/
theorem Pass.finished_run_sublist (session : Session) (phases : List Phase) :
    (run session phases).finished.Sublist phases := by
  induction phases generalizing session with
  | nil => exact .slnil
  | cons phase rest ih =>
    rw [run]
    cases session.run phase with
    | error failure => exact List.nil_sublist _
    | ok next => exact (ih next).cons_cons phase

/-- The folder of records ends in a name. -/
theorem getLast?_recordFolder (output : String) :
    (recordFolder output).toList.getLast? = some 't' := by
  unfold recordFolder Path.join
  split
  · decide
  split
  · decide
  · split <;> simp

theorem foldersOf_recordFile (output : String) (record : Phase × Session) :
    Disk.foldersOf ((recordFile record).placedIn (recordFolder output)) =
      Path.outwards (String.ofList ((Path.anchored (recordFolder output).toList).1 ++
        ['/'].intercalate (Path.trimmed
          ((Path.anchored (recordFolder output).toList).2.splitOn '/')))) := by
  have ends := getLast?_recordFolder output
  have nonempty : (recordFolder output).toList ≠ [] := by
    intro none
    simp [none] at ends
  have joined : (recordFile record).placedIn (recordFolder output) =
      recordFolder output ++ "/" ++ (record.1.name ++ ".json") := by
    rw [Artifact.placedIn, Path.join, recordFile]
    dsimp only
    rw [if_neg (by simp [Phase.not_isAbsolute_recordName]), ends]
    dsimp only
    rw [if_neg (by decide)]
  rw [Disk.foldersOf, joined, Path.parent?_append_slash nonempty
    (Phase.slash_notMem_recordName _) (Phase.isEntry_recordName _), Option.map_some,
    Option.getD_some]

/-- The records of a pass are stored in different files. -/
theorem Pass.nodup_last_recordFile (config : Config) (model : HostModel) :
    ((ofModel config model).completed.map fun record =>
      Path.last (recordFile record).path).Nodup := by
  have finished : (ofModel config model).finished.Nodup :=
    (finished_run_sublist _ Phase.all).nodup (by decide)
  have names : (ofModel config model).completed.map
      (fun record => Path.last (recordFile record).path) =
        (ofModel config model).finished.map fun phase => phase.name ++ ".json" := by
    rw [Pass.finished, List.map_map]
    apply List.map_congr_left
    intro record _
    exact Path.last_of_notMem (Phase.slash_notMem_recordName record.1)
  rw [names]
  exact finished.map fun _ _ same => Phase.recordName_inj same

namespace Command

variable {project : Project} {folder : String} {dryRun recorded : Bool} {disk : Disk}

/-- The pass of a project. -/
abbrev passOf (project : Project) : Pass :=
  .ofModel project.config project.model

/-- A run that shows its files, or cannot render them, does nothing to a disk but write the
records. -/
theorem disk_of_generateProject
    (idle : dryRun = true ∨ ∃ failure, renderPass (passOf project) = .error failure) :
    ((generateProject folder dryRun recorded project).run disk).1 =
      ((storeRecords (recordFolder folder)
        (if recorded then (passOf project).completed else [])).run.run disk).1 := by
  let records := if recorded then (passOf project).completed else []
  have parts : (generateProject folder dryRun recorded project).run disk =
      FileTask.run disk (.bind (storeRecords (recordFolder folder) records).run _) := rfl
  rw [parts, FileTask.run_bind]
  cases (storeRecords (recordFolder folder) records).run.run disk with
  | mk after outcome =>
    cases outcome with
    | error fault => rfl
    | ok _ =>
      rcases idle with shown | ⟨failure, fails⟩
      · cases rendered : renderPass (.ofModel project.config project.model) with
        | error failure => rfl
        | ok result => simp [shown, FileTask.run, pure]
      · rw [fails]
        rfl

/-- The records that a run of a project writes. -/
def recordsOf (project : Project) (folder : String) (disk : Disk) : List Artifact :=
  recordsWritten (recordFolder folder) disk (passOf project).completed

/-- A recorded run that is idle stores its records and nothing else. -/
theorem areStored_of_idle
    (idle : dryRun = true ∨ ∃ failure, renderPass (passOf project) = .error failure) :
    Artifact.AreStored (recordFolder folder) (recordsOf project folder disk) disk
      ((generateProject folder dryRun true project).run disk).1 := by
  rw [disk_of_generateProject idle, if_pos rfl]
  exact areStored_of_storeRecords (fun record _ => foldersOf_recordFile folder record)
    (Pass.nodup_last_recordFile project.config project.model)

/-- A run that shows its files, or cannot render them, leaves a disk as it is unless it records its
phases.  Then it stores records and nothing else, and it leaves all files as they are if and only if
the records that can be written were there. -/
theorem idle_run_untouched_iff
    (idle : dryRun = true ∨ ∃ failure, renderPass (passOf project) = .error failure) :
    let after := ((generateProject folder dryRun recorded project).run disk).1
    let records := recordsOf project folder disk
    (recorded = false → after = disk) ∧
      (recorded = true → Artifact.AreStored (recordFolder folder) records disk after) ∧
      (after.textAt? = disk.textAt? ↔
        recorded = false ∨ ∀ record ∈ records, ∃ location,
          record.IsStoredAt (recordFolder folder) after location ∧
            disk.textAt? location = some record.content) := by
  intro after records
  have unrecorded : recorded = false → after = disk := by
    rintro rfl
    exact disk_of_generateProject idle
  have stores : recorded = true → Artifact.AreStored (recordFolder folder) records disk after := by
    rintro rfl
    exact areStored_of_idle idle
  refine ⟨unrecorded, stores, ?_, ?_⟩
  · intro same
    cases recording : recorded with
    | false => exact .inl rfl
    | true =>
      refine .inr fun record listed => ?_
      obtain ⟨location, there⟩ := (stores recording).stored record listed
      exact ⟨location, there, by rw [← same, there.current]⟩
  · intro known
    cases recording : recorded with
    | false => rw [unrecorded recording]
    | true =>
      have before := known.resolve_left (by simp [recording])
      funext location
      by_cases written : ∃ record ∈ records,
          record.IsStoredAt (recordFolder folder) after location
      · obtain ⟨record, listed, there⟩ := written
        obtain ⟨other, elsewhere, same⟩ := before record listed
        have here : location = other :=
          Except.ok.inj (there.located.symm.trans elsewhere.located)
        rw [there.current, here, same]
      · exact (stores recording).others location fun record listed there =>
          written ⟨record, listed, there⟩

theorem write_record_empty (text : String) :
    Disk.empty.write (Path.join (recordFolder "generated") "discover.json") text =
      (⟨[(["generated"], .folder), (["generated", ".glot"], .folder),
        (["generated", ".glot", "discover.json"], .file text)]⟩, .ok ()) :=
  rfl

/-- The first phase always succeeds, and its record can be written on an empty disk. -/
theorem exists_mem_recordsOf_empty (project : Project) :
    ∃ record, record ∈ recordsOf project "generated" .empty := by
  have begins : ∃ session rest, (passOf project).completed = (.discover, session) :: rest :=
    ⟨_, _, rfl⟩
  obtain ⟨session, rest, completed⟩ := begins
  have named : (recordFile (.discover, session)).placedIn (recordFolder "generated") =
      Path.join (recordFolder "generated") "discover.json" := rfl
  refine ⟨recordFile (.discover, session), ?_⟩
  rw [recordsOf, recordsWritten, completed, List.map_cons, List.takeWhile_cons_of_pos]
  · exact List.mem_cons_self
  · rw [named, write_record_empty]
    rfl

/-- A declaration root that mentions a type which is not in the model. -/
def danglingProject : Project where
  path := "glot.toml"
  config := rootedConfig
  model := {
    types := [{ Snapshot.plainType with
      name := "A"
      members := [{ Snapshot.plainMember with name := "b", type := .named "B" [] }] }]
    distinct := by decide }

theorem danglingProject_fails :
    ∃ failure, renderPass (passOf danglingProject) = .error failure := by
  have fails : (passOf danglingProject).outcome.isOk = false := by cbv
  unfold renderPass
  cases outcome : (passOf danglingProject).outcome with
  | error failed => exact ⟨failed.2, rfl⟩
  | ok session =>
    rw [outcome] at fails
    cases fails

/-- On an empty disk a failing run leaves nothing behind unless it records its phases. -/
theorem danglingProject_idle :
    (∃ failure, renderPass (passOf danglingProject) = .error failure) ∧
      ((generateProject "generated" false false danglingProject).run .empty).1 = .empty ∧
      Artifact.AreStored (recordFolder "generated") (recordsOf danglingProject "generated" .empty)
        .empty ((generateProject "generated" false true danglingProject).run .empty).1 := by
  have unrecorded := @idle_run_untouched_iff danglingProject "generated" false false .empty
    (.inr danglingProject_fails)
  have recorded := @idle_run_untouched_iff danglingProject "generated" false true .empty
    (.inr danglingProject_fails)
  exact ⟨danglingProject_fails, unrecorded.1 rfl, recorded.2.1 rfl⟩

theorem textAt?_ne_of_idle
    (idle : dryRun = true ∨ ∃ failure, renderPass (passOf project) = .error failure) :
    ((generateProject "generated" dryRun true project).run .empty).1.textAt? ≠
      Disk.empty.textAt? := by
  obtain ⟨record, listed⟩ := exists_mem_recordsOf_empty project
  obtain ⟨location, there⟩ := (areStored_of_idle idle).stored record listed
  intro same
  have nothing : Disk.empty.textAt? location = none := by
    unfold Disk.textAt? Disk.entry?
    split <;> simp_all [Disk.empty]
  have current := there.current
  rw [same, nothing] at current
  cases current

/-- A project with one type, which is also a recipe. -/
def rootedProject : Project where
  path := "glot.toml"
  config := rootedConfig
  model := recipeModel

/-- A run that fails, and one that shows its files, write the records that they are asked for. -/
theorem danglingProject_touched :
    (∃ failure, renderPass (passOf danglingProject) = .error failure) ∧
      ((generateProject "generated" false true danglingProject).run .empty).1.textAt? ≠
        Disk.empty.textAt? ∧
      ((generateProject "generated" true true rootedProject).run .empty).1.textAt? ≠
        Disk.empty.textAt? :=
  ⟨danglingProject_fails, textAt?_ne_of_idle (.inr danglingProject_fails),
    textAt?_ne_of_idle (.inl rfl)⟩

end Command

end TypeBridge
