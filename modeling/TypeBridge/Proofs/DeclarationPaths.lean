import Mathlib.Data.List.Induction
import TypeBridge.Adapter.Naming
import TypeBridge.Proofs.FileNames

/-!
# The way from adapters to declarations

An adapter imports the declarations by a path that leads out of the folder of the adapters first:
one step for each entry on the way into it.  A step outwards on that way undoes an entry and needs
no step back, but it is passed over, so the import reaches the declaration file exactly when there is
no such step.
-/

namespace TypeBridge

/-- Where a relative path leads from a folder: some steps outwards, then down some entries. -/
structure Place where
  outwards : Nat
  entries : List String
  deriving DecidableEq, Repr

namespace Place

/-- The folder itself. -/
def here : Place :=
  ⟨0, []⟩

/-- Where one more piece of a path leads.  Nothing is looked up: a step outwards undoes the entry
before it. -/
def step (place : Place) (piece : String) : Place :=
  if Path.isEntry piece then ⟨place.outwards, place.entries ++ [piece]⟩
  else if piece = ".." then
    if place.entries = [] then ⟨place.outwards + 1, []⟩
    else ⟨place.outwards, place.entries.dropLast⟩
  else place

def follow (place : Place) (pieces : List String) : Place :=
  pieces.foldl step place

def ofPath (path : String) : Place :=
  here.follow (Path.pieces path)

/-- The place as it is from a number of folders further in. -/
def further (place : Place) (count : Nat) : Place :=
  ⟨place.outwards + count, place.entries⟩

/-- The place with an ending behind its last entry. -/
def extended (place : Place) (ending : String) : Place :=
  match place.entries.getLast? with
  | none => place
  | some name => ⟨place.outwards, place.entries.dropLast ++ [name ++ ending]⟩

variable {place : Place} {piece : String} {pieces : List String}

theorem step_of_isEntry (isEntry : Path.isEntry piece = true) :
    place.step piece = ⟨place.outwards, place.entries ++ [piece]⟩ :=
  if_pos isEntry

theorem step_outwards : place.step ".." =
    if place.entries = [] then ⟨place.outwards + 1, []⟩
    else ⟨place.outwards, place.entries.dropLast⟩ :=
  rfl

theorem step_of_stays (noEntry : ¬ Path.isEntry piece = true) (inside : piece ≠ "..") :
    place.step piece = place := by
  rw [step, if_neg noEntry, if_neg inside]

theorem follow_append (front back : List String) :
    place.follow (front ++ back) = (place.follow front).follow back :=
  List.foldl_append

theorem follow_concat (front : List String) :
    place.follow (front ++ [piece]) = (place.follow front).step piece :=
  follow_append front [piece]

/-! ### From further in -/

theorem step_further (count : Nat) :
    (place.further count).step piece = (place.step piece).further count := by
  by_cases isEntry : Path.isEntry piece = true
  · rw [step_of_isEntry isEntry, step_of_isEntry isEntry]
    rfl
  by_cases outwards : piece = ".."
  · rw [outwards, step_outwards, step_outwards]
    by_cases empty : place.entries = []
    · simp [further, empty, Nat.add_right_comm]
    · simp [further, empty]
  · rw [step_of_stays isEntry outwards, step_of_stays isEntry outwards]

theorem follow_further (count : Nat) :
    (place.further count).follow pieces = (place.follow pieces).further count := by
  induction pieces generalizing place with
  | nil => rfl
  | cons piece rest ih =>
    rw [follow, List.foldl_cons, step_further]
    exact ih

theorem further_eq_self_iff {count : Nat} : place.further count = place ↔ count = 0 := by
  cases place
  simp [further]

/-! ### The way in and the way out -/

/-- A way with so many entries and steps outwards leads to a place: each entry is still there or
undone, and each step outwards undoes one or leads out. -/
def Accounts (place : Place) (entries outwards : Nat) : Prop :=
  ∃ undone, place.entries.length + undone = entries ∧ place.outwards + undone = outwards

theorem Accounts.step {entries outwards : Nat} (accounts : place.Accounts entries outwards)
    (piece : String) : (place.step piece).Accounts (entries + [piece].countP Path.isEntry)
      (outwards + [piece].count "..") := by
  obtain ⟨undone, rfl, rfl⟩ := accounts
  by_cases isEntry : Path.isEntry piece = true
  · have inside : piece ≠ ".." := by
      rintro rfl
      exact absurd isEntry (by decide)
    refine ⟨undone, ?_, ?_⟩
    · simp [step_of_isEntry isEntry, isEntry]
      omega
    · simp [step_of_isEntry isEntry, inside]
  by_cases leads : piece = ".."
  · have noEntry : Path.isEntry ".." = false := by decide
    rw [leads, step_outwards]
    by_cases empty : place.entries = []
    · refine ⟨undone, ?_, ?_⟩
      · simp [empty, noEntry]
      · simp [empty]
        omega
    · have some : 0 < place.entries.length := List.length_pos_iff.2 empty
      refine ⟨undone + 1, ?_, ?_⟩
      · simp [empty, noEntry]
        omega
      · simp [empty]
        omega
  · refine ⟨undone, ?_, ?_⟩
    · simp [step_of_stays isEntry leads, isEntry]
    · simp [step_of_stays isEntry leads, leads]

theorem accounts_follow (pieces : List String) :
    (here.follow pieces).Accounts (pieces.countP Path.isEntry) (pieces.count "..") := by
  induction pieces using List.reverseRecOn with
  | nil => exact ⟨0, rfl, rfl⟩
  | append_singleton front piece ih =>
    rw [follow_concat, List.countP_append, List.count_append]
    exact ih.step piece

theorem follow_replicate_outwards (outwards count : Nat) :
    (⟨outwards, []⟩ : Place).follow (List.replicate count "..") = ⟨outwards + count, []⟩ := by
  induction count generalizing outwards with
  | zero => rfl
  | succ count ih =>
    rw [List.replicate_succ, follow, List.foldl_cons]
    exact (ih (outwards + 1)).trans (by rw [Nat.add_right_comm, Nat.add_assoc])

theorem follow_replicate_entries (outwards count : Nat) (entries : List String) :
    (⟨outwards, entries⟩ : Place).follow (List.replicate (entries.length + count) "..") =
      ⟨outwards + count, []⟩ := by
  induction entries using List.reverseRecOn with
  | nil => rw [List.length_nil, Nat.zero_add, follow_replicate_outwards]
  | append_singleton front entry ih =>
    rw [List.length_append, List.length_singleton, Nat.add_right_comm, List.replicate_succ, follow,
      List.foldl_cons, step_outwards, if_neg (by simp), List.dropLast_concat]
    exact ih

/-- As many steps outwards as a path has entries lead out of the folder it leads to, and then as far
out again as the path has steps outwards itself. -/
theorem follow_ofPath_outwards (path : String) :
    (ofPath path).follow (List.replicate (Path.depth path) "..") =
      here.further ((Path.pieces path).count "..") := by
  obtain ⟨undone, entries, outwards⟩ := accounts_follow (Path.pieces path)
  rw [Path.depth, ← entries, ← outwards]
  refine (follow_replicate_entries _ undone _).trans ?_
  rw [further, here, Nat.zero_add]
  rfl

/-! ### Continued paths -/

theorem ofPath_append_slash (front back : String) :
    ofPath (front ++ "/" ++ back) = (ofPath front).follow (Path.pieces back) := by
  rw [ofPath, Path.pieces_append_slash, follow_append, ofPath]

theorem ofPath_join {path : String} (base : String) (relative : Path.isAbsolute path = false) :
    ofPath (Path.join base path) = (ofPath base).follow (Path.pieces path) := by
  obtain ⟨rfl, same⟩ | ⟨front, rfl | rfl, same⟩ := Path.join_cases base relative
  · rw [same]
    rfl
  · rw [same, ofPath_append_slash]
  · -- the base has an empty piece behind its last slash, which leads nowhere
    have bare : ofPath (front ++ "/") = ofPath front := by
      have whole := ofPath_append_slash front ""
      rwa [String.append_empty] at whole
    rw [same, ofPath_append_slash, bare]

/-! ### Endings -/

theorem extended_concat (outwards : Nat) (entries : List String) (name ending : String) :
    (⟨outwards, entries ++ [name]⟩ : Place).extended ending =
      ⟨outwards, entries ++ [name ++ ending]⟩ := by
  simp [extended]

theorem extended_further (count : Nat) (ending : String) :
    (place.further count).extended ending = (place.extended ending).further count := by
  unfold extended further
  cases place.entries.getLast? <;> rfl

theorem length_entries_extended (ending : String) :
    (place.extended ending).entries.length = place.entries.length := by
  unfold extended
  split
  · rfl
  · next name ends =>
    obtain ⟨front, same⟩ := List.getLast?_eq_some_iff.1 ends
    simp [same]

theorem length_entries_step_le (noEntry : ¬ Path.isEntry piece = true) :
    (place.step piece).entries.length ≤ place.entries.length := by
  by_cases outwards : piece = ".."
  · rw [outwards, step_outwards]
    split
    · exact Nat.zero_le _
    · exact (List.dropLast_sublist _).length_le
  · rw [step_of_stays noEntry outwards]

/-- Where an ending makes an entry of the last piece of a path, the longer path leads to the place of
the shorter one with that ending, provided that the last piece is an entry without it. -/
theorem extended_ofPath_iff {path ending : String} (slashless : '/' ∉ ending.toList)
    (isEntry : Path.isEntry (Path.last path ++ ending) = true) (count : Nat) :
    ((ofPath path).further count).extended ending = ofPath (path ++ ending) ↔
      count = 0 ∧ Path.isEntry (Path.last path) = true := by
  obtain ⟨front, pieces, longer⟩ := Path.exists_pieces_append path
  rw [extended_further, ofPath, ofPath, longer ending slashless, pieces, follow_concat,
    follow_concat, step_of_isEntry isEntry]
  by_cases named : Path.isEntry (Path.last path) = true
  · rw [step_of_isEntry named, extended_concat, further_eq_self_iff]
    exact (and_iff_left named).symm
  · refine iff_of_false (fun same => ?_) fun both => named both.2
    have short : ((here.follow front).step (Path.last path)).entries.length ≤
        (here.follow front).entries.length := length_entries_step_le named
    have long := congrArg (·.entries.length) same
    simp only [further, length_entries_extended, List.length_append, List.length_singleton] at long
    omega

end Place

namespace Adapter

theorem pieces_join_replicate (count : Nat) (path : String) :
    Path.pieces (String.join (List.replicate count "../") ++ path) =
      List.replicate count ".." ++ Path.pieces path := by
  induction count with
  | zero => simp [String.join]
  | succ count ih =>
    have cut : String.join (List.replicate (count + 1) "../") ++ path =
        ".." ++ "/" ++ (String.join (List.replicate count "../") ++ path) := by
      rw [List.replicate_succ, String.join_cons, String.append_assoc]
      rfl
    rw [cut, Path.pieces_append_slash, ih]
    rfl

/-- A declaration file is its stem with the ending of such files. -/
theorem declarations_eq_stem_append {declarations : String}
    (ends : Config.isDeclarationFile declarations = true) :
    declarations = String.ofList (declarationStem declarations) ++ ".d.ts" := by
  obtain ⟨front, same⟩ := List.isSuffixOf_iff_suffix.1 ends
  have stem : declarationStem declarations = front := by
    unfold declarationStem
    dsimp only
    rw [if_pos (List.isSuffixOf_iff_suffix.2 ⟨front, same⟩), ← same]
    simp
  rw [← String.toList_inj, stem, ← same]
  simp

theorem mem_of_mem_declarationStem {file : String} {c : Char}
    (member : c ∈ declarationStem file) : c ∈ file.toList := by
  unfold declarationStem at member
  dsimp only at member
  split at member
  · exact List.mem_of_mem_take member
  · exact member

theorem declarationModule_eq {declarations : String} (slashed : '\\' ∉ declarations.toList)
    (adapters : String) : declarationModule declarations adapters =
      (if Path.depth adapters = 0 then "./"
        else String.join (List.replicate (Path.depth adapters) "../")) ++
          String.ofList (declarationStem declarations) := by
  have kept : (declarationStem declarations).map (fun c => if c = '\\' then '/' else c) =
      declarationStem declarations := by
    refine (List.map_congr_left fun c member => if_neg ?_).trans (List.map_id' _)
    rintro rfl
    exact slashed (mem_of_mem_declarationStem member)
  rw [declarationModule, kept]
  cases Path.depth adapters <;> rfl

theorem isAbsolute_declarationModule {declarations : String}
    (slashed : '\\' ∉ declarations.toList) (adapters : String) :
    Path.isAbsolute (declarationModule declarations adapters) = false := by
  rw [declarationModule_eq slashed]
  cases Path.depth adapters with
  | zero => simp [Path.isAbsolute]
  | succ count => simp [Path.isAbsolute, List.replicate_succ, String.join_cons]

theorem follow_declarationModule {declarations : String} (slashed : '\\' ∉ declarations.toList)
    (adapters : String) (place : Place) :
    place.follow (Path.pieces (declarationModule declarations adapters)) =
      (place.follow (List.replicate (Path.depth adapters) "..")).follow
        (Path.pieces (String.ofList (declarationStem declarations))) := by
  rw [declarationModule_eq slashed]
  by_cases bare : Path.depth adapters = 0
  · rw [if_pos bare, bare]
    have cut : "./" ++ String.ofList (declarationStem declarations) =
        "." ++ "/" ++ String.ofList (declarationStem declarations) := rfl
    rw [cut, Path.pieces_append_slash, Place.follow_append]
    rfl
  · rw [if_neg bare, pieces_join_replicate, Place.follow_append]

/-- Seen from the output folder, the import leads to the stem of the declaration file, but as far
outside as the way to the adapters has steps outwards. -/
theorem ofPath_declarationModule {declarations : String} (slashed : '\\' ∉ declarations.toList)
    (adapters : String) :
    Place.ofPath (Path.join adapters (declarationModule declarations adapters)) =
      (Place.ofPath (String.ofList (declarationStem declarations))).further
        ((Path.pieces adapters).count "..") := by
  rw [Place.ofPath_join adapters (isAbsolute_declarationModule slashed adapters),
    follow_declarationModule slashed, Place.follow_ofPath_outwards, Place.follow_further]
  rfl

/-- With the ending of declaration files the import names the declaration file exactly when the way to
the adapters has no step outwards and something that can be the name of an entry stands in front of
that ending. -/
theorem extended_declarationModule_iff {config : Config} (unbroken : config.brokenRule? = none)
    (slashed : '\\' ∉ config.declarations.toList) :
    (Place.ofPath (Path.join config.adapters
        (declarationModule config.declarations config.adapters))).extended ".d.ts" =
      Place.ofPath config.declarations ↔
    ".." ∉ Path.pieces config.adapters ∧
      Path.isEntry (Path.last (String.ofList (declarationStem config.declarations))) = true := by
  have ends := Config.isDeclarationFile_of_brokenRule? unbroken
  have isEntry : Path.isEntry
      (Path.last (String.ofList (declarationStem config.declarations)) ++ ".d.ts") = true :=
    Path.isEntry_of_length (by simp)
  rw [ofPath_declarationModule slashed, ← List.count_eq_zero]
  conv => lhs; rhs; rw [declarations_eq_stem_append ends]
  exact Place.extended_ofPath_iff (by decide) isEntry _

end Adapter

/-- The import of the declarations reaches the stem of their file exactly when the way to the
adapters has no step outwards.  With its ending the import then names the file, if something stands
in front of that ending that can be the name of an entry. -/
theorem declarations_reached_iff {config : Config} (unbroken : config.brokenRule? = none)
    (slashed : '\\' ∉ config.declarations.toList) :
    let reached := Place.ofPath
      (Path.join config.adapters (Adapter.declarationModule config.declarations config.adapters))
    let stem := String.ofList (Adapter.declarationStem config.declarations)
    (reached = Place.ofPath stem ↔ ".." ∉ Path.pieces config.adapters) ∧
      (reached.extended ".d.ts" = Place.ofPath config.declarations ↔
        ".." ∉ Path.pieces config.adapters ∧ Path.isEntry (Path.last stem) = true) := by
  intro reached stem
  refine ⟨?_, Adapter.extended_declarationModule_iff unbroken slashed⟩
  have reaches : reached = (Place.ofPath stem).further ((Path.pieces config.adapters).count "..") :=
    Adapter.ofPath_declarationModule slashed config.adapters
  rw [← List.count_eq_zero, reaches]
  exact Place.further_eq_self_iff

/-- A project with one model and these paths. -/
def pathConfig (declarations adapters : String) : Config :=
  { Config.plain with models := ["model.toml"], declarations, adapters }

theorem pathConfig_reached :
    (pathConfig "lib/../types.d.ts" "./web//kit").brokenRule? = none ∧
      Adapter.declarationModule "lib/../types.d.ts" "./web//kit" = "../../lib/../types" ∧
      Place.ofPath (Path.join "./web//kit" "../../lib/../types") = ⟨0, ["types"]⟩ ∧
      (Place.ofPath (Path.join "./web//kit" "../../lib/../types")).extended ".d.ts" =
        Place.ofPath "lib/../types.d.ts" := by
  have unbroken : (pathConfig "lib/../types.d.ts" "./web//kit").brokenRule? = none := by rfl
  have specifier :
      Adapter.declarationModule "lib/../types.d.ts" "./web//kit" = "../../lib/../types" := by rfl
  have inwards : ".." ∉ Path.pieces "./web//kit" := by decide
  obtain ⟨stem, file⟩ := declarations_reached_iff unbroken (by decide)
  simp only [pathConfig, specifier] at stem file
  exact ⟨unbroken, specifier, (stem.2 inwards).trans (by decide), file.2 ⟨inwards, by decide⟩⟩

/-- One entry is undone on the way to the adapters, and yet it is left once more on the way out. -/
theorem pathConfig_missed :
    (pathConfig "types.d.ts" "web/../kit").brokenRule? = none ∧
      '\\' ∉ "types.d.ts".toList ∧
      Path.isAbsolute "types.d.ts" = false ∧ Path.isAbsolute "web/../kit" = false ∧
      Adapter.declarationModule "types.d.ts" "web/../kit" = "../../types" ∧
      Place.ofPath (Path.join "web/../kit" "../../types") = ⟨1, ["types"]⟩ ∧
      Place.ofPath (Path.join "web/../kit" "../../types") ≠ Place.ofPath "types" ∧
      (Place.ofPath (Path.join "web/../kit" "../../types")).extended ".d.ts" ≠
        Place.ofPath "types.d.ts" := by
  refine ⟨by rfl, by decide, by decide, by decide, by rfl, by decide, by decide, by decide⟩

end TypeBridge
