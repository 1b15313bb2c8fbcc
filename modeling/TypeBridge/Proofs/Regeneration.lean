import TypeBridge.Project.Generation
import TypeBridge.Proofs.ArtifactNames
import TypeBridge.Proofs.DiskContents

/-!
# Generating twice

The artifacts of a pass are stored at different locations, because they end in different names.  So
each of them is still there at the end of a run, and a second run finds nothing to write.
-/

namespace TypeBridge

namespace FileTask

variable {ε α β : Type} {before after : Disk} {path text : String}

theorem run_readFile_bind {next : Option String → FileTask β} :
    (readFile path >>= next).run before = (next (before.read? path)).run before :=
  rfl

theorem run_writeFile_bind {next : Except WriteFault Unit → FileTask β} :
    (writeFile path text >>= next).run before =
      (next (before.write path text).2).run (before.write path text).1 :=
  rfl

/-- A task in two parts succeeds when the first part does and the second part does on the disk that
the first one leaves. -/
theorem run_bind_eq_ok_iff {task : ExceptT ε FileTask α} {next : α → ExceptT ε FileTask β} {b : β} :
    (task >>= next).run.run before = (after, .ok b) ↔
      ∃ between a, task.run.run before = (between, .ok a) ∧
        (next a).run.run between = (after, .ok b) := by
  have parts : (task >>= next).run.run before =
      ((ExceptT.bindCont next) (task.run.run before).2).run (task.run.run before).1 :=
    run_bind before task.run (ExceptT.bindCont next)
  rw [parts]
  obtain ⟨between, outcome⟩ := task.run.run before
  cases outcome with
  | error fault => simp [ExceptT.bindCont, pure, run]
  | ok a => simp [ExceptT.bindCont, ExceptT.run]

end FileTask

namespace Artifact

variable {folder : String} {artifact : Artifact} {artifacts : List Artifact}
  {before after disk : Disk} {location : Location} {change : Change} {changes : ChangeList}

/-- The place of a file below a folder. -/
abbrev placedIn (folder : String) (artifact : Artifact) : String :=
  Path.join folder artifact.path

/-- A file is up to date, or it is written. -/
theorem run_store : (artifact.store folder).run.run before =
    if before.read? (artifact.placedIn folder) = some artifact.content then (before, .ok .unchanged)
    else ((before.write (artifact.placedIn folder) artifact.content).1,
      (before.write (artifact.placedIn folder) artifact.content).2.map fun _ =>
        .between (before.read? (artifact.placedIn folder)) artifact.content) := by
  have between : Change.between (before.read? (artifact.placedIn folder)) artifact.content =
      .unchanged ↔ before.read? (artifact.placedIn folder) = some artifact.content := by
    unfold Change.between
    cases before.read? (artifact.placedIn folder) with
    | none => simp
    | some text => by_cases same : text = artifact.content <;> simp [same]
  rw [store, ExceptT.run_mk, FileTask.run_readFile_bind]
  by_cases current : before.read? (artifact.placedIn folder) = some artifact.content
  · rw [if_pos current, if_pos (between.2 current), between.2 current]
    rfl
  · rw [if_neg current, if_neg (between.not.2 current), FileTask.run_writeFile_bind]
    cases (before.write (artifact.placedIn folder) artifact.content).2 <;> rfl

/-- A file that is missing is created if it can be written. -/
theorem run_store_of_missing (missing : before.read? (artifact.placedIn folder) = none)
    (written : before.write (artifact.placedIn folder) artifact.content = (after, .ok ())) :
    (artifact.store folder).run.run before = (after, .ok .created) := by
  rw [run_store, missing, if_neg (by simp), written]
  rfl

/-- A file is stored at a location that has the last name of its path. -/
structure IsStoredAt (folder : String) (artifact : Artifact) (disk : Disk) (location : Location) :
    Prop where
  located : disk.locate (artifact.placedIn folder) = .ok location
  named : location.getLast? = some (Path.last artifact.path)
  current : disk.textAt? location = some artifact.content

theorem IsStoredAt.of_keepsFolders (stored : artifact.IsStoredAt folder before location)
    (kept : before.KeepsFolders after) (same : after.textAt? location = before.textAt? location) :
    artifact.IsStoredAt folder after location where
  located := kept.locate stored.located
  named := stored.named
  current := same.trans stored.current

theorem getLast?_pieces_placedIn : (Path.pieces (artifact.placedIn folder)).getLast? =
    some (Path.last artifact.path) := by
  rw [Path.getLast?_pieces, Path.last_join]

theorem IsStoredAt.of_stores
    (stores : before.Stores (artifact.placedIn folder) artifact.content location after) :
    artifact.IsStoredAt folder after location where
  located := stores.located
  named := stores.named.trans getLast?_pieces_placedIn
  current := by rw [stores.texts, if_pos rfl]

/-- What one file does to a disk: it is there afterwards, and nothing else is changed. -/
theorem exists_isStoredAt_of_store (isEntry : Path.isEntry (Path.last artifact.path) = true)
    (stores : (artifact.store folder).run.run before = (after, .ok change)) :
    ∃ location, artifact.IsStoredAt folder after location ∧
      (∀ other, other ≠ location → after.textAt? other = before.textAt? other) ∧
        before.KeepsFolders after := by
  rw [run_store] at stores
  split at stores
  · next current =>
    cases stores
    obtain ⟨location, located, text⟩ := Disk.read?_eq_some_iff.1 current
    have named := Disk.getLast?_of_locate located (by rw [getLast?_pieces_placedIn]; exact isEntry)
    exact ⟨location, ⟨located, named.trans getLast?_pieces_placedIn, text⟩, fun _ _ => rfl,
      fun _ folder => folder⟩
  · cases written : before.write (artifact.placedIn folder) artifact.content with
    | mk next outcome =>
      rw [written] at stores
      cases outcome with
      | error fault => cases stores
      | ok _ =>
        cases stores
        obtain ⟨location, stored⟩ := Disk.stores_of_write written
        refine ⟨location, .of_stores stored, ?_, stored.folders⟩
        intro other elsewhere
        rw [stored.texts, if_neg elsewhere]

theorem storeAll_cons_eq_ok_iff {rest : List Artifact} :
    (storeAll folder (artifact :: rest)).run.run before = (after, .ok changes) ↔
      ∃ between change others, (artifact.store folder).run.run before = (between, .ok change) ∧
        (storeAll folder rest).run.run between = (after, .ok others) ∧
          changes = ⟨(artifact.path, change) :: others.changes⟩ := by
  rw [storeAll, FileTask.run_bind_eq_ok_iff]
  constructor
  · rintro ⟨between, change, first, later⟩
    obtain ⟨last, others, stored, done⟩ := FileTask.run_bind_eq_ok_iff.1 later
    cases done
    exact ⟨between, change, others, first, stored, rfl⟩
  · rintro ⟨between, change, others, first, later, rfl⟩
    exact ⟨between, change, first, FileTask.run_bind_eq_ok_iff.2 ⟨after, others, later, rfl⟩⟩

/-- A disk that holds all files, and otherwise what an earlier disk holds. -/
structure AreStored (folder : String) (artifacts : List Artifact) (before after : Disk) : Prop where
  stored : ∀ artifact ∈ artifacts, ∃ location, artifact.IsStoredAt folder after location
  others : ∀ other, (∀ artifact ∈ artifacts, ¬ artifact.IsStoredAt folder after other) →
    after.textAt? other = before.textAt? other
  folders : before.KeepsFolders after

namespace AreStored

variable {rest : List Artifact} {between : Disk}

/-- Without files nothing is changed, apart from folders. -/
theorem of_growsTo (grows : before.GrowsTo after) : AreStored folder [] before after where
  stored := by simp
  others _ _ := congrFun grows.textAt? _
  folders := grows.keepsFolders

/-- The first file is still there at the end, because no other one has its name. -/
theorem cons (stored : artifact.IsStoredAt folder between location)
    (apart : ∀ other, other ≠ location → between.textAt? other = before.textAt? other)
    (folders : before.KeepsFolders between) (later : AreStored folder rest between after)
    (fresh : Path.last artifact.path ∉ rest.map fun artifact => Path.last artifact.path) :
    AreStored folder (artifact :: rest) before after := by
  have kept : after.textAt? location = between.textAt? location := by
    apply later.others
    intro other listed there
    have same := Option.some.inj (there.named.symm.trans stored.named)
    exact fresh (List.mem_map.2 ⟨other, listed, same⟩)
  have storedFirst := stored.of_keepsFolders later.folders kept
  refine ⟨?_, ?_, folders.trans later.folders⟩
  · intro other member
    rcases List.mem_cons.1 member with rfl | listed
    · exact ⟨location, storedFirst⟩
    · exact later.stored other listed
  · intro other free
    have elsewhere : other ≠ location := by
      rintro rfl
      exact free artifact List.mem_cons_self storedFirst
    rw [later.others other fun artifact listed => free artifact (List.mem_cons_of_mem _ listed),
      apart other elsewhere]

end AreStored

/-- Files that end in different names do not replace each other. -/
theorem areStored_of_storeAll
    (isEntry : ∀ artifact ∈ artifacts, Path.isEntry (Path.last artifact.path) = true)
    (distinct : (artifacts.map fun artifact => Path.last artifact.path).Nodup)
    (stores : (storeAll folder artifacts).run.run before = (after, .ok changes)) :
    AreStored folder artifacts before after := by
  induction artifacts generalizing before changes with
  | nil =>
    cases stores
    exact .of_growsTo (.refl _)
  | cons first rest ih =>
    obtain ⟨between, change, others, stores, storesRest, -⟩ := storeAll_cons_eq_ok_iff.1 stores
    obtain ⟨fresh, distinct⟩ := List.nodup_cons.1 distinct
    obtain ⟨location, stored, apart, folders⟩ :=
      exists_isStoredAt_of_store (isEntry first List.mem_cons_self) stores
    have later := ih (fun artifact listed => isEntry artifact (List.mem_cons_of_mem _ listed))
      distinct storesRest
    exact .cons stored apart folders later fresh

theorem IsStoredAt.read? (stored : artifact.IsStoredAt folder disk location) :
    disk.read? (artifact.placedIn folder) = some artifact.content :=
  Disk.read?_eq_some_iff.2 ⟨location, stored.located, stored.current⟩

/-- Where all files are up to date nothing is written. -/
theorem run_storeAll_of_current
    (current : ∀ artifact ∈ artifacts,
      disk.read? (artifact.placedIn folder) = some artifact.content) :
    (storeAll folder artifacts).run.run disk =
      (disk, .ok ⟨artifacts.map fun artifact => (artifact.path, .unchanged)⟩) := by
  induction artifacts with
  | nil => rfl
  | cons first rest ih =>
    have unchanged : (first.store folder).run.run disk = (disk, .ok .unchanged) := by
      rw [run_store, if_pos (current first List.mem_cons_self)]
    have others := ih fun artifact listed => current artifact (List.mem_cons_of_mem _ listed)
    exact storeAll_cons_eq_ok_iff.2 ⟨disk, .unchanged, _, unchanged, others, rfl⟩

end Artifact

theorem ChangeList.written_eq_zero {list : ChangeList}
    (unchanged : ∀ entry ∈ list.changes, entry.2 = .unchanged) : list.written = 0 := by
  have none (change : Change) (changed : change ≠ .unchanged) : list.having change = [] := by
    rw [having, List.map_eq_nil_iff, List.filter_eq_nil_iff]
    intro entry listed
    rw [unchanged entry listed, beq_iff_eq]
    exact changed.symm
  rw [written, none .created (by decide), none .updated (by decide)]
  rfl

namespace Config

variable {config : Config}

/-- A configuration that was read breaks no rule. -/
theorem brokenRule?_of_read {file text : String} (accepted : read file text = .ok config) :
    config.brokenRule? = none := by
  unfold read at accepted
  split at accepted
  · cases accepted
  split at accepted
  · cases accepted
  split at accepted
  · cases accepted
  · next unbroken =>
    cases accepted
    exact unbroken

end Config

section

variable {config : Config} {sources : List (String × String)} {model : HostModel}
  {session : Session} {rendering : Rendering}

/-- The recipes of a loaded model have no slash in their names. -/
theorem Pass.slash_notMem_recipes (loaded : HostModel.ofSources sources = .ok model)
    (succeeds : (ofModel config model).outcome = .ok session) :
    ∀ recipe ∈ session.recipes, '/' ∉ recipe.name.toList := by
  obtain ⟨graph, order, -, -, rfl⟩ := Pass.outcome_eq_ok_iff.1 succeeds
  intro recipe yielded
  obtain ⟨type, candidate, -, converted⟩ := Pass.exists_keepsRules yielded
  obtain ⟨name, -, found⟩ := List.mem_filterMap.1 candidate
  have known : type ∈ model.types := (HostModel.get?_eq_some_iff.1 found).1
  obtain ⟨outer, kept⟩ := HostModel.keepsRules_of_ofSources loaded type known
  have same : recipe.name = type.name := RecipeDraft.name_of_schema converted
  rw [same]
  exact Name.slash_notMem_of_fault? kept.named

/-- The files of an accepted project end in different names, each of which names an entry. -/
theorem Rendering.last_artifacts {file text : String}
    (accepted : Config.read file text = .ok config)
    (loaded : HostModel.ofSources sources = .ok model)
    (succeeds : (Pass.ofModel config model).outcome = .ok session)
    (rendered : ofSession session = .ok rendering) :
    (rendering.artifacts.map fun artifact => Path.last artifact.path).Nodup ∧
      ∀ artifact ∈ rendering.artifacts, Path.isEntry (Path.last artifact.path) = true := by
  have slashless := Pass.slash_notMem_recipes loaded succeeds
  have isDeclarations :=
    Config.isDeclarationFile_of_brokenRule? (Config.brokenRule?_of_read accepted)
  obtain ⟨graph, order, -, -, sameConfig, -⟩ := Pass.outcome_eq_ok succeeds
  obtain ⟨-, -, unit, -, -, -, rfl⟩ := ofSession_eq_ok_iff.1 rendered
  rw [← sameConfig] at isDeclarations
  have apart : (AdapterSet.ofRecipes session.config.declarations session.config.adapters
      session.recipes).IsToldApart :=
    AdapterSet.isToldApart_ofRecipes slashless
  exact ⟨nodup_last_artifacts isDeclarations apart, isEntry_last_artifacts isDeclarations apart⟩

/-- A run that succeeds leaves every artifact with its content and every other file as it was.  A
second run writes nothing. -/
theorem generation_idempotent {file text folder : String} {disk after : Disk}
    {changes : ChangeList} (accepted : Config.read file text = .ok config)
    (loaded : HostModel.ofSources sources = .ok model)
    (succeeds : (Pass.ofModel config model).outcome = .ok session)
    (rendered : Rendering.ofSession session = .ok rendering)
    (generated : (rendering.store folder).run disk = (after, .ok changes)) :
    (rendering.artifacts.map (·.path)).Nodup ∧
      (∀ artifact ∈ rendering.artifacts,
        after.read? (Path.join folder artifact.path) = some artifact.content) ∧
      (∀ location,
        (∀ artifact ∈ rendering.artifacts,
          after.locate (Path.join folder artifact.path) ≠ .ok location) →
        after.textAt? location = disk.textAt? location) ∧
      ∃ again : ChangeList, (rendering.store folder).run after = (after, .ok again) ∧
        again.changes = rendering.artifacts.map (fun artifact => (artifact.path, .unchanged)) ∧
        again.written = 0 := by
  obtain ⟨distinct, isEntry⟩ := Rendering.last_artifacts accepted loaded succeeds rendered
  have stored := Artifact.areStored_of_storeAll isEntry distinct generated
  have current : ∀ artifact ∈ rendering.artifacts,
      after.read? (Path.join folder artifact.path) = some artifact.content := by
    intro artifact listed
    obtain ⟨location, there⟩ := stored.stored artifact listed
    exact there.read?
  refine ⟨?_, current, ?_, _, Artifact.run_storeAll_of_current current, rfl,
    ChangeList.written_eq_zero (by simp)⟩
  · have names : (rendering.artifacts.map (·.path)).map Path.last =
        rendering.artifacts.map fun artifact => Path.last artifact.path := by
      rw [List.map_map]
      rfl
    exact List.Nodup.of_map Path.last (names ▸ distinct)
  · intro location free
    exact stored.others location fun artifact listed there => free artifact listed there.located

end

/-- A document from its statements. -/
theorem Toml.document?_eq_some {text : String} {statements : List Statement} {progress : Progress}
    (read : statements? (Text.byteLength text.toList) (withoutMark text.toList) = some statements)
    (built : statements.foldlM Progress.step ⟨[], []⟩ = some progress) :
    document? text = some (finishFields progress.root) := by
  unfold document?
  dsimp only
  rw [read]
  dsimp only
  rw [built, Option.map_some]

theorem Snapshot.read_eq_ok {file text : String} {table : Toml.Table} {types : List HostType}
    (document : Toml.document? text = some table) (decoded : asSnapshot (.table table) = .ok types)
    (faultless : firstFault? none types = none) : read file text = .ok types := by
  unfold read
  rw [document]
  dsimp only
  rw [decoded]
  dsimp only
  rw [faultless]

/-- A project with one type, which is a declaration root and a recipe. -/
def rootedText : String :=
  "[generate]\nmodels=[\"m.toml\"]\nroots=[\"A\"]\n"

def rootedConfig : Config :=
  { Config.plain with models := ["m.toml"], roots := ["A"] }

theorem read_rootedText : Config.read "glot.toml" rootedText = .ok rootedConfig := by
  have statements : Toml.statements? (Text.byteLength rootedText.toList)
      (Toml.withoutMark rootedText.toList) = some [.header false [] "generate",
        .pair [] "models" (.array ⟨18, 28⟩ [.scalar ⟨19, 27⟩ (.text "m.toml")]),
        .pair [] "roots" (.array ⟨35, 40⟩ [.scalar ⟨36, 39⟩ (.text "A")])] := by
    cbv
  have document := Toml.document?_eq_some statements rfl
  unfold Config.read
  rw [document]
  rfl

def recipeText : String :=
  "[[types]]\nname=\"A\"\n[[types.annotations]]\nname=\"Recipe\"\n" ++
    "[types.annotations.args]\ndisplay_name=\"P\"\ndescription=\"C\"\n"

def recipeType : HostType :=
  { Snapshot.plainType with
    name := "A"
    span := ⟨15, 18⟩
    annotations := [⟨"Recipe", [("description", .scalar ⟨109, 112⟩ (.text "C")),
      ("display_name", .scalar ⟨93, 96⟩ (.text "P"))]⟩] }

def recipeModel : HostModel where
  types := [recipeType]
  distinct := by decide

theorem ofSources_recipeText : HostModel.ofSources [("m.toml", recipeText)] = .ok recipeModel := by
  have statements : Toml.statements? (Text.byteLength recipeText.toList)
      (Toml.withoutMark recipeText.toList) = some [.header true [] "types",
        .pair [] "name" (.scalar ⟨15, 18⟩ (.text "A")),
        .header true ["types"] "annotations",
        .pair [] "name" (.scalar ⟨46, 54⟩ (.text "Recipe")),
        .header false ["types", "annotations"] "args",
        .pair [] "display_name" (.scalar ⟨93, 96⟩ (.text "P")),
        .pair [] "description" (.scalar ⟨109, 112⟩ (.text "C"))] := by
    cbv
  have read : Snapshot.read "m.toml" recipeText = .ok [recipeType] :=
    Snapshot.read_eq_ok (Toml.document?_eq_some statements rfl) rfl (by cbv)
  have added : HostModel.Merge.addFile ⟨.empty, []⟩ ("m.toml", recipeText) =
      .ok ⟨recipeModel, [("A", "m.toml")]⟩ := by
    rw [HostModel.Merge.addFile_eq]
    dsimp only
    rw [read]
    rfl
  unfold HostModel.ofSources
  rw [List.foldlM_cons, added]
  rfl

/-- The output folder of a project with a file that is not generated, and further entries. -/
def notedDisk (entries : List (Location × Stored)) : Disk :=
  ⟨(["generated"], .folder) :: (["generated", "notes.md"], .file "kept") :: entries⟩

/-- The same folder with a declaration file. -/
def declaredDisk (declarations : String) (entries : List (Location × Stored)) : Disk :=
  notedDisk ((["generated", "types.d.ts"], .file declarations) :: entries)

/-- The same folder with the module that adapters share. -/
def sharedDisk (declarations shared : String) (entries : List (Location × Stored)) : Disk :=
  declaredDisk declarations ((["generated", "adapters"], .folder) ::
    (["generated", "adapters", "runtime.ts"], .file shared) :: entries)

theorem exists_storeAll_notedDisk (declarations shared adapter : String) :
    ∃ entries changes, (Artifact.storeAll "generated" [⟨"types.d.ts", declarations⟩,
      ⟨"adapters/runtime.ts", shared⟩, ⟨"adapters/a.ts", adapter⟩]).run.run (notedDisk []) =
        (sharedDisk declarations shared entries, .ok changes) := by
  have noDeclarations : (notedDisk []).read? (Path.join "generated" "types.d.ts") = none := rfl
  have first : (notedDisk []).write (Path.join "generated" "types.d.ts") declarations =
      (declaredDisk declarations [], .ok ()) := rfl
  have noShared : (declaredDisk declarations []).read?
      (Path.join "generated" "adapters/runtime.ts") = none := rfl
  have second : (declaredDisk declarations []).write
      (Path.join "generated" "adapters/runtime.ts") shared =
        (sharedDisk declarations shared [], .ok ()) := rfl
  have noAdapter : (sharedDisk declarations shared []).read?
      (Path.join "generated" "adapters/a.ts") = none := rfl
  have third : (sharedDisk declarations shared []).write
      (Path.join "generated" "adapters/a.ts") adapter =
        (sharedDisk declarations shared [(["generated", "adapters", "a.ts"], .file adapter)],
          .ok ()) := rfl
  have storesFirst : (Artifact.store "generated" ⟨"types.d.ts", declarations⟩).run.run
      (notedDisk []) = (declaredDisk declarations [], .ok .created) :=
    Artifact.run_store_of_missing noDeclarations first
  have storesSecond : (Artifact.store "generated" ⟨"adapters/runtime.ts", shared⟩).run.run
      (declaredDisk declarations []) = (sharedDisk declarations shared [], .ok .created) :=
    Artifact.run_store_of_missing noShared second
  have storesThird : (Artifact.store "generated" ⟨"adapters/a.ts", adapter⟩).run.run
      (sharedDisk declarations shared []) = (sharedDisk declarations shared
        [(["generated", "adapters", "a.ts"], .file adapter)], .ok .created) :=
    Artifact.run_store_of_missing noAdapter third
  have storesNone (disk : Disk) :
      (Artifact.storeAll "generated" []).run.run disk = (disk, .ok ⟨[]⟩) := rfl
  have fromThird := Artifact.storeAll_cons_eq_ok_iff.2 ⟨_, _, _, storesThird, storesNone _, rfl⟩
  have fromSecond := Artifact.storeAll_cons_eq_ok_iff.2 ⟨_, _, _, storesSecond, fromThird, rfl⟩
  exact ⟨_, _, Artifact.storeAll_cons_eq_ok_iff.2 ⟨_, _, _, storesFirst, fromSecond, rfl⟩⟩

theorem recipeModel_generated :
    ∃ session rendering after changes,
      Config.read "glot.toml" rootedText = .ok rootedConfig ∧
      HostModel.ofSources [("m.toml", recipeText)] = .ok recipeModel ∧
      (Pass.ofModel rootedConfig recipeModel).outcome = .ok session ∧
      Rendering.ofSession session = .ok rendering ∧
      (rendering.store "generated").run (notedDisk []) = (after, .ok changes) ∧
      rendering.artifacts.map (·.path) = ["types.d.ts", "adapters/runtime.ts", "adapters/a.ts"] ∧
      (∀ artifact ∈ rendering.artifacts,
        after.read? (Path.join "generated" artifact.path) = some artifact.content) ∧
      ∃ again : ChangeList, (rendering.store "generated").run after = (after, .ok again) ∧
        again.written = 0 := by
  have evaluated : (declaredGraph? rootedConfig recipeModel).map
      (fun (graph, _) => graph.names) = some ["A"] := by
    cbv
  obtain ⟨⟨graph, unit⟩, known, -⟩ := Option.map_eq_some_iff.1 evaluated
  obtain ⟨session, rendering, succeeds, rendered, -, -, recipes, -⟩ :=
    exists_of_declaredGraph? known
  obtain ⟨-, -, -, -, sameConfig, -⟩ := Pass.outcome_eq_ok succeeds
  have yielded : (Pass.extraction rootedConfig recipeModel graph).recipes =
      [⟨"A", "P", "C", [], none⟩] := by
    have candidates : (Discovery.scan rootedConfig recipeModel).candidates.recipes =
        [recipeType.name] := by
      cbv
    apply Pass.recipes_extraction_singleton candidates rfl
    · intro rule grave
      cases rule with
      | emptyDescription => cases grave
      | _ => rfl
    · rfl
  have paths : rendering.artifacts.map (·.path) =
      ["types.d.ts", "adapters/runtime.ts", "adapters/a.ts"] := by
    obtain ⟨-, -, unit, -, -, -, rfl⟩ := Rendering.ofSession_eq_ok_iff.1 rendered
    rw [sameConfig, recipes, yielded, Rendering.artifacts]
    have named : (AdapterNames.ofName "A").fileName = "a.ts" := by cbv
    dsimp only
    rw [AdapterSet.units_ofRecipes_singleton (by decide)]
    dsimp only
    rw [named, if_neg (by simp)]
    have shared : Path.join "adapters" Adapter.sharedFileName = "adapters/runtime.ts" := by decide
    have adapter : Path.join "adapters" "a.ts" = "adapters/a.ts" := by decide
    have adapters : rootedConfig.adapters = "adapters" := rfl
    have declarations : rootedConfig.declarations = "types.d.ts" := rfl
    simp [Rendering.adapterFile, adapters, declarations, shared, adapter]
  obtain ⟨⟨-, declarations⟩, two, artifacts, rfl, secondPath⟩ := List.map_eq_cons_iff.1 paths
  obtain ⟨⟨-, shared⟩, one, rfl, rfl, thirdPath⟩ := List.map_eq_cons_iff.1 secondPath
  obtain ⟨⟨-, adapter⟩, none, rfl, rfl, noPath⟩ := List.map_eq_cons_iff.1 thirdPath
  obtain rfl := List.map_eq_nil_iff.1 noPath
  obtain ⟨entries, changes, stored⟩ := exists_storeAll_notedDisk declarations shared adapter
  have generated : (rendering.store "generated").run (notedDisk []) =
      (sharedDisk declarations shared entries, .ok changes) := by
    rw [Rendering.store, artifacts]
    exact stored
  obtain ⟨-, current, -, again, unchanged, -, written⟩ := generation_idempotent read_rootedText
    ofSources_recipeText succeeds rendered generated
  exact ⟨session, rendering, _, changes, read_rootedText, ofSources_recipeText, succeeds,
    rendered, generated, paths, current, again, unchanged, written⟩

end TypeBridge
