import TypeBridge.Proofs.AdapterReferences
import TypeBridge.Proofs.FileNames
import TypeBridge.Proofs.SnapshotRules

/-!
# The file names of artifacts

The artifacts of a pass are told apart by the last piece of their paths: only the declaration file
ends as declaration files do, because a name in kebab case has no dot, and adapters avoid each other
and the shared module.
-/

namespace TypeBridge

namespace Text

variable {c d : Char} {text : String}

/-- Pieces hold the characters that are no separators. -/
theorem mem_splitOnP_iff {α : Type} {p : α → Bool} {a : α} {all : List α} :
    (∃ piece ∈ all.splitOnP p, a ∈ piece) ↔ a ∈ all ∧ p a = false := by
  induction all with
  | nil => simp
  | cons first rest ih =>
    have here : a = first → (p a = false ↔ ¬ p first = true) := by
      rintro rfl
      simp
    rw [List.splitOnP_cons_eq_if_modifyHead, List.mem_cons]
    by_cases parts : p first = true
    · rw [if_pos parts, List.exists_mem_cons_iff, ih]
      grind
    · rw [if_neg parts]
      cases split : rest.splitOnP p with
      | nil => exact absurd split (List.splitOnP_ne_nil p rest)
      | cons piece others =>
        rw [split, List.exists_mem_cons_iff] at ih
        rw [List.modifyHead_cons, List.exists_mem_cons_iff, List.mem_cons]
        grind

theorem le_of_mem_lowering :
    ∀ shift ∈ Letter.lowering, 0x41 ≤ shift.source.first + shift.distance := by
  decide +kernel

theorem le_of_mem_wideLowering :
    ∀ entry ∈ Letter.wideLowering, ∀ code ∈ entry.2, 0x41 ≤ code := by
  decide

theorem toNat_ofNat (code : Nat) :
    (Char.ofNat code).toNat = code ∨ (Char.ofNat code).toNat = 0 := by
  unfold Char.ofNat
  split
  · exact .inl rfl
  · exact .inr rfl

/-- Lowering makes letters only, so a character before the letters is not changed by it. -/
theorem eq_of_mem_lowered (member : c ∈ Letter.lowered d) (visible : 0 < c.toNat)
    (low : c.toNat < 0x41) : c = d := by
  unfold Letter.lowered at member
  split at member
  · rw [List.mem_singleton] at member
    by_cases capital : d.isUpper = true
    · have high : 0x41 ≤ d.toNat := by
        simp only [Char.isUpper, decide_eq_true_eq] at capital
        exact UInt32.le_iff_toNat_le.1 capital.1
      rw [Char.toLower_eq_of_isUpper capital] at member
      rcases toNat_ofNat (d.toNat + 32) with same | same
      · rw [← member] at same
        omega
      · rw [← member] at same
        omega
    · rw [member, Char.toLower_eq_of_not_isUpper capital]
  unfold Letter.mapped at member
  split at member
  · next codes found =>
    obtain ⟨front, back, table, -⟩ := List.lookup_eq_some_iff.1 found
    obtain ⟨code, listed, rfl⟩ := List.mem_map.1 member
    have high := le_of_mem_wideLowering (d.toNat, codes) (by simp [table]) code listed
    rcases toNat_ofNat code with same | same <;> omega
  · split at member
    · next shift found =>
      have high := le_of_mem_lowering shift (List.mem_of_find?_eq_some found)
      have inside := List.find?_some found
      simp only [Letter.Run.contains, Bool.and_eq_true, decide_eq_true_eq] at inside
      rw [List.mem_singleton] at member
      rcases toNat_ofNat (d.toNat + shift.distance).toNat with same | same
      · rw [← member] at same
        omega
      · rw [← member] at same
        omega
    · exact List.mem_singleton.1 member

/-- A name in kebab case has hyphens and the lowered characters of words. -/
theorem mem_kebabCase (member : c ∈ (kebabCase text).toList) :
    c = '-' ∨ ∃ d ∈ text.toList, isSeparator d = false ∧ c ∈ Letter.lowered d := by
  rw [kebabCase, String.toList_ofList] at member
  rcases mem_intercalate_iff.1 member with ⟨hyphen, -⟩ | ⟨word, listed, inside⟩
  · exact .inl hyphen
  · obtain ⟨cut, cuts, rfl⟩ := List.mem_map.1 listed
    obtain ⟨piece, split, cuts⟩ := List.mem_flatMap.1 cuts
    obtain ⟨d, drawn, inside⟩ := List.mem_flatMap.1 inside
    have inPiece : d ∈ piece := by
      rw [← flatten_cutAtCase piece]
      exact List.mem_flatten.2 ⟨cut, cuts, drawn⟩
    obtain ⟨known, apart⟩ := mem_splitOnP_iff.1 ⟨piece, split, inPiece⟩
    exact .inr ⟨d, known, apart, inside⟩

theorem dot_notMem_kebabCase (text : String) : '.' ∉ (kebabCase text).toList := by
  intro member
  rcases mem_kebabCase member with hyphen | ⟨d, -, apart, lowered⟩
  · exact absurd hyphen (by decide)
  · have same : '.' = d := eq_of_mem_lowered lowered (by decide) (by decide)
    rw [← same] at apart
    exact absurd apart (by decide)

theorem slash_notMem_kebabCase (slashless : '/' ∉ text.toList) :
    '/' ∉ (kebabCase text).toList := by
  intro member
  rcases mem_kebabCase member with hyphen | ⟨d, known, -, lowered⟩
  · exact absurd hyphen (by decide)
  · have same : '/' = d := eq_of_mem_lowered lowered (by decide) (by decide)
    exact slashless (same ▸ known)

end Text

namespace Name

variable {name : String}

/-- An identifier holds no other characters than those that continue one. -/
theorem isPart_of_identifierFault? {segment : List Char}
    (faultless : identifierFault? segment = none) {c : Char} (member : c ∈ segment) :
    isPart c = true := by
  cases segment with
  | nil => cases member
  | cons first rest =>
    simp only [identifierFault?] at faultless
    split at faultless
    · cases faultless
    next starts =>
    split at faultless
    · next parts =>
      rcases List.mem_cons.1 member with rfl | later
      · have start : isStart c = true := by simpa using starts
        rcases Bool.or_eq_true_iff.1 start with letter | underscore
        · simp [isPart, Text.Letter.isAlphanumeric_of_isAlphabetic letter]
        · simp [isPart, underscore]
      · exact List.all_eq_true.1 parts c later
    · cases faultless

/-- The segments of a faultless name hold the characters of identifiers. -/
theorem isPart_of_fault? (faultless : fault? name = none) {c : Char} (member : c ∈ name.toList)
    (inside : (c == '.' || c == '$') = false) : isPart c = true := by
  unfold fault? at faultless
  split at faultless
  · cases faultless
  obtain ⟨segment, split, inSegment⟩ :=
    Text.mem_splitOnP_iff (p := fun c => c == '.' || c == '$').2 ⟨member, inside⟩
  have clean := List.findSome?_eq_none_iff.1 faultless segment split
  unfold segmentFault? at clean
  split at clean
  · cases clean
  · exact isPart_of_identifierFault? clean inSegment

theorem slash_notMem_of_fault? (faultless : fault? name = none) : '/' ∉ name.toList := by
  intro member
  exact absurd (isPart_of_fault? faultless member (by decide)) (by decide)

theorem mem_of_mem_join_path {c : Char} (member : c ∈ (String.join (path name)).toList) :
    c ∈ name.toList := by
  have split : ∃ piece ∈ (behindLast '.' name.toList).splitOnP (· == '$'), c ∈ piece := by
    simpa [String.join_eq, path, List.splitOn_eq_splitOnP] using member
  obtain ⟨last, -⟩ := Text.mem_splitOnP_iff.1 split
  rw [behindLast, List.mem_reverse] at last
  exact List.mem_reverse.1 ((List.takeWhile_sublist _).subset last)

end Name

namespace AdapterSet

variable {set : AdapterSet}

/-- The files of adapters have different names, without a folder, none of which is that of the
shared module or ends as declaration files do. -/
structure IsToldApart (set : AdapterSet) : Prop where
  distinct : (set.units.map (·.fileName)).Nodup
  named : ∀ unit ∈ set.units, ∃ stem : String, unit.fileName = stem ++ ".ts" ∧
    '.' ∉ stem.toList ∧ '/' ∉ stem.toList ∧ stem ≠ Adapter.sharedModule

theorem isToldApart_ofRecipes {declarations adapters : String} {recipes : List RecipeSchema}
    (slashless : ∀ recipe ∈ recipes, '/' ∉ recipe.name.toList) :
    (ofRecipes declarations adapters recipes).IsToldApart := by
  obtain ⟨accepted, refused, allots, units, -⟩ := exists_allots declarations adapters recipes
  refine ⟨?_, fun unit member => ?_⟩
  · rw [units]
    exact allots.nodup_fileNames
  · rw [units] at member
    obtain ⟨recipe, accepts, rfl⟩ := List.mem_map.1 member
    have listed : recipe ∈ recipes := allots.accepted_sublist.subset accepts
    have plain : '/' ∉ (String.join (Name.path recipe.name)).toList :=
      fun inside => slashless recipe listed (Name.mem_of_mem_join_path inside)
    exact ⟨_, rfl, Text.dot_notMem_kebabCase _, Text.slash_notMem_kebabCase plain,
      allots.free recipe accepts⟩

namespace IsToldApart

variable {unit : AdapterUnit}

theorem slash_notMem (apart : set.IsToldApart) (member : unit ∈ set.units) :
    '/' ∉ unit.fileName.toList := by
  obtain ⟨stem, named, -, slashless, -⟩ := apart.named unit member
  simp [named, slashless]

theorem ne_shared (apart : set.IsToldApart) (member : unit ∈ set.units) :
    unit.fileName ≠ Adapter.sharedFileName := by
  obtain ⟨stem, named, -, -, free⟩ := apart.named unit member
  rw [named]
  intro same
  exact free (String.append_left_inj ".ts" |>.1 same)

theorem not_declarationFile (apart : set.IsToldApart) (member : unit ∈ set.units) :
    ¬ ".d.ts".toList <:+ unit.fileName.toList := by
  obtain ⟨stem, named, dotless, -, -⟩ := apart.named unit member
  rw [named]
  rintro ⟨front, same⟩
  have cut : front ++ ['.', 'd'] = stem.toList := by
    have ends : (front ++ ['.', 'd']) ++ ['.', 't', 's'] = stem.toList ++ ['.', 't', 's'] := by
      simpa using same
    exact List.append_cancel_right ends
  exact dotless (by simp [← cut])

end IsToldApart

end AdapterSet

namespace Rendering

variable {rendering : Rendering}

theorem map_last_artifacts (apart : rendering.adapters.IsToldApart) :
    rendering.artifacts.map (fun artifact => Path.last artifact.path) =
      Path.last rendering.declarationFile ::
        ((if rendering.adapters.units.isEmpty then [] else [Adapter.sharedFileName]) ++
          rendering.adapters.units.map (·.fileName)) := by
  have units : rendering.adapters.units.map (fun unit => Path.last unit.fileName) =
      rendering.adapters.units.map (·.fileName) :=
    List.map_congr_left fun unit member => Path.last_of_notMem (apart.slash_notMem member)
  have shared : Path.last Adapter.sharedFileName = Adapter.sharedFileName :=
    Path.last_of_notMem (by decide)
  have adapters : rendering.adapters.units.map
      (fun unit => Path.last (rendering.adapterFile unit.fileName unit.source).path) =
        rendering.adapters.units.map (·.fileName) := by
    simp only [adapterFile, Path.last_join, units]
  unfold artifacts
  dsimp only
  by_cases bare : rendering.adapters.units.isEmpty = true
  · rw [if_pos bare, if_pos bare]
    simp [Function.comp_def, adapters]
  · rw [if_neg bare, if_neg bare]
    have sharedFile (body : String) :
        Path.last (rendering.adapterFile Adapter.sharedFileName body).path =
          Adapter.sharedFileName := by
      rw [adapterFile, Path.last_join, shared]
    simp [Function.comp_def, adapters, sharedFile]

/-- The artifacts of a rendering end in different names. -/
theorem nodup_last_artifacts (isDeclarations : Config.isDeclarationFile rendering.declarationFile)
    (apart : rendering.adapters.IsToldApart) :
    (rendering.artifacts.map fun artifact => Path.last artifact.path).Nodup := by
  have ends : ".d.ts".toList <:+ (Path.last rendering.declarationFile).toList :=
    Path.isSuffix_last (List.isSuffixOf_iff_suffix.1 isDeclarations) (by decide)
  rw [map_last_artifacts apart, List.nodup_cons, List.nodup_append]
  refine ⟨?_, ?_, apart.distinct, ?_⟩
  · intro member
    rcases List.mem_append.1 member with shared | adapter
    · split at shared
      · cases shared
      · rw [List.mem_singleton.1 shared] at ends
        exact absurd ends (by decide)
    · obtain ⟨unit, listed, same⟩ := List.mem_map.1 adapter
      rw [← same] at ends
      exact apart.not_declarationFile listed ends
  · split <;> simp
  · intro name shared other adapter same
    obtain ⟨unit, listed, named⟩ := List.mem_map.1 adapter
    split at shared
    · cases shared
    · rw [List.mem_singleton] at shared
      exact apart.ne_shared listed (named.trans (same.symm.trans shared))

/-- Every artifact ends in the name of a TypeScript file. -/
theorem isSuffix_last_artifacts
    (isDeclarations : Config.isDeclarationFile rendering.declarationFile)
    (apart : rendering.adapters.IsToldApart) :
    ∀ artifact ∈ rendering.artifacts, ".ts".toList <:+ (Path.last artifact.path).toList := by
  intro artifact listed
  have member : Path.last artifact.path ∈
      rendering.artifacts.map fun artifact => Path.last artifact.path :=
    List.mem_map.2 ⟨artifact, listed, rfl⟩
  rw [map_last_artifacts apart, List.mem_cons, List.mem_append] at member
  rcases member with declarations | shared | adapter
  · have ends : ".d.ts".toList <:+ (Path.last rendering.declarationFile).toList :=
      Path.isSuffix_last (List.isSuffixOf_iff_suffix.1 isDeclarations) (by decide)
    rw [declarations]
    exact List.IsSuffix.trans ⟨['.', 'd'], rfl⟩ ends
  · split at shared
    · cases shared
    · rw [List.mem_singleton.1 shared]
      decide
  · obtain ⟨unit, known, same⟩ := List.mem_map.1 adapter
    obtain ⟨stem, named, -⟩ := apart.named unit known
    rw [← same, named, String.toList_append]
    exact List.suffix_append _ _

theorem isEntry_last_artifacts (isDeclarations : Config.isDeclarationFile rendering.declarationFile)
    (apart : rendering.adapters.IsToldApart) :
    ∀ artifact ∈ rendering.artifacts, Path.isEntry (Path.last artifact.path) = true := by
  intro artifact listed
  have ends := isSuffix_last_artifacts isDeclarations apart artifact listed
  exact Path.isEntry_of_length (Nat.lt_of_lt_of_le (by decide) ends.length_le)

end Rendering

end TypeBridge
