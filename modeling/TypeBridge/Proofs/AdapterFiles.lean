import Mathlib.Data.List.Nodup
import Mathlib.Data.List.Perm.Basic
import Mathlib.Data.Option.Basic
import TypeBridge.Adapter.Unit

/-!
# Every recipe has an adapter or an error

Adapters are written recipe by recipe.  A recipe takes the stem of its file when that is free, and
leaves an error and nothing else when it is not.  So each recipe is either accepted, with an adapter
that depends on the recipe alone, or refused, and it is refused exactly when its stem belongs to the
shared module or to a recipe that was accepted before.
-/

namespace TypeBridge

/-- The stem of the file of a recipe's adapter. -/
def RecipeSchema.fileStem (recipe : RecipeSchema) : String :=
  (AdapterNames.ofName recipe.name).file

/-- The adapter of a recipe whose file is free. -/
def AdapterUnit.ofRecipe (declarationModule : String) (recipe : RecipeSchema) : AdapterUnit where
  recipe := recipe.name
  fileName := (AdapterNames.ofName recipe.name).fileName
  source := (Adapter.sourceFile declarationModule recipe).text .script

namespace AdapterSet

variable {declarationModule : String} {progress : Progress}
  {recipes accepted refused : List RecipeSchema} {recipe : RecipeSchema}

namespace Progress

/-- The file of a recipe is neither that of the shared module nor taken. -/
def IsFree (progress : Progress) (recipe : RecipeSchema) : Prop :=
  recipe.fileStem ≠ Adapter.sharedModule ∧ recipe.fileStem ∉ progress.taken.map (·.1)

theorem lookup_taken_eq_none_iff {stem : String} :
    progress.taken.lookup stem = none ↔ stem ∉ progress.taken.map (·.1) := by
  simp only [List.lookup_eq_none_iff, List.mem_map, not_exists, not_and]
  exact forall₂_congr fun entry _ => by rw [bne_iff_ne, ne_comm]

/-- A recipe with a free file adds its adapter and takes the file. -/
theorem add_of_isFree (declarationModule : String) (free : progress.IsFree recipe) :
    (progress.add declarationModule recipe).units =
        progress.units ++ [.ofRecipe declarationModule recipe] ∧
      (progress.add declarationModule recipe).diagnostics = progress.diagnostics ∧
      (progress.add declarationModule recipe).taken =
        (recipe.fileStem, recipe.name) :: progress.taken := by
  have notShared : (AdapterNames.ofName recipe.name).file ≠ Adapter.sharedModule := free.1
  have untaken : progress.taken.lookup (AdapterNames.ofName recipe.name).file = none :=
    lookup_taken_eq_none_iff.2 free.2
  unfold add
  dsimp only
  rw [if_neg notShared, untaken]
  exact ⟨rfl, rfl, rfl⟩

/-- Any other recipe adds an error about it. -/
theorem add_of_not_isFree (declarationModule : String) (blocked : ¬ progress.IsFree recipe) :
    (progress.add declarationModule recipe).units = progress.units ∧
      (progress.add declarationModule recipe).taken = progress.taken ∧
      ∃ found : Diagnostic, found.severity = .error ∧ found.location = some recipe.name ∧
        (progress.add declarationModule recipe).diagnostics =
          progress.diagnostics ++ [found] := by
  unfold add
  dsimp only
  by_cases shared : (AdapterNames.ofName recipe.name).file = Adapter.sharedModule
  · rw [if_pos shared]
    exact ⟨rfl, rfl, refusal recipe.name _ "reserved for the runtime", rfl, rfl, rfl⟩
  · rw [if_neg shared]
    cases taken : progress.taken.lookup (AdapterNames.ofName recipe.name).file with
    | none => exact absurd ⟨shared, lookup_taken_eq_none_iff.1 taken⟩ blocked
    | some first =>
      exact ⟨rfl, rfl, refusal recipe.name _ ("already generated for " ++ first), rfl, rfl, rfl⟩

end Progress

/-- Recipes are accepted or refused one by one, each file going to the first one that asks. -/
structure Allots (recipes accepted refused : List RecipeSchema) : Prop where
  accepted_sublist : accepted.Sublist recipes
  refused_sublist : refused.Sublist recipes
  perm : (accepted ++ refused).Perm recipes
  distinct : (accepted.map (·.fileStem)).Nodup
  free : ∀ recipe ∈ accepted, recipe.fileStem ≠ Adapter.sharedModule
  refused_iff : recipes.Nodup → ∀ front recipe back, recipes = front ++ recipe :: back →
    (recipe ∈ refused ↔ recipe.fileStem = Adapter.sharedModule ∨
      ∃ earlier ∈ front, earlier ∈ accepted ∧ earlier.fileStem = recipe.fileStem)

/-- The element in the middle of a list with one more element is the last one or was there. -/
theorem eq_or_exists_of_append_singleton {α : Type} {all front back : List α} {last a : α}
    (split : all ++ [last] = front ++ a :: back) :
    (all = front ∧ last = a) ∨ ∃ rest, back = rest ++ [last] ∧ all = front ++ a :: rest := by
  rcases List.eq_nil_or_concat back with rfl | ⟨rest, other, rfl⟩
  · obtain ⟨same, single⟩ := List.append_inj' split rfl
    exact .inl ⟨same, List.singleton_inj.1 single⟩
  · rw [List.concat_eq_append, ← List.cons_append, ← List.append_assoc] at split
    obtain ⟨same, single⟩ := List.append_inj' split rfl
    rw [List.singleton_inj.1 single]
    exact .inr ⟨rest, by rw [List.concat_eq_append], same⟩

namespace Allots

theorem nil : Allots [] [] [] where
  accepted_sublist := .slnil
  refused_sublist := .slnil
  perm := .nil
  distinct := .nil
  free := by simp
  refused_iff := by simp

theorem accept (allots : Allots recipes accepted refused)
    (notShared : recipe.fileStem ≠ Adapter.sharedModule)
    (untaken : recipe.fileStem ∉ accepted.map (·.fileStem)) :
    Allots (recipes ++ [recipe]) (accepted ++ [recipe]) refused where
  accepted_sublist := allots.accepted_sublist.append (.refl _)
  refused_sublist := allots.refused_sublist.trans (List.sublist_append_left _ _)
  perm := by
    rw [List.append_assoc]
    refine (List.perm_append_comm.append_left accepted).trans ?_
    rw [← List.append_assoc]
    exact allots.perm.append_right [recipe]
  distinct := by
    rw [List.map_append, List.map_singleton, ← List.concat_eq_append]
    exact allots.distinct.concat untaken
  free other member := by
    rcases List.mem_append.1 member with before | last
    · exact allots.free other before
    · rwa [List.mem_singleton.1 last]
  refused_iff distinct front other back split := by
    have fresh : recipe ∉ recipes := by
      rw [← List.concat_eq_append, List.nodup_concat] at distinct
      exact distinct.1
    have before : recipes.Nodup := distinct.sublist (List.sublist_append_left _ _)
    have known : ∀ earlier ∈ recipes,
        (earlier ∈ accepted ++ [recipe] ↔ earlier ∈ accepted) := by
      intro earlier listed
      have differs : earlier ≠ recipe := fun same => fresh (same ▸ listed)
      simp [differs]
    rcases eq_or_exists_of_append_singleton split with ⟨rfl, rfl⟩ | ⟨rest, rfl, rfl⟩
    · -- the recipe itself is accepted, and nobody before it has its file
      constructor
      · intro refusal
        exact absurd (allots.refused_sublist.subset refusal) fresh
      · rintro (shared | ⟨earlier, listed, taken, same⟩)
        · exact absurd shared notShared
        · exact absurd (same ▸ List.mem_map_of_mem ((known earlier listed).1 taken)) untaken
    · rw [allots.refused_iff before front other rest rfl]
      refine or_congr_right (exists_congr fun earlier => and_congr_right fun listed => ?_)
      rw [known earlier (List.mem_append_left _ listed)]

theorem refuse (allots : Allots recipes accepted refused)
    (blocked : recipe.fileStem = Adapter.sharedModule ∨
      recipe.fileStem ∈ accepted.map (·.fileStem)) :
    Allots (recipes ++ [recipe]) accepted (refused ++ [recipe]) where
  accepted_sublist := allots.accepted_sublist.trans (List.sublist_append_left _ _)
  refused_sublist := allots.refused_sublist.append (.refl _)
  perm := by
    rw [← List.append_assoc]
    exact allots.perm.append_right [recipe]
  distinct := allots.distinct
  free := allots.free
  refused_iff distinct front other back split := by
    have fresh : recipe ∉ recipes := by
      rw [← List.concat_eq_append, List.nodup_concat] at distinct
      exact distinct.1
    have before : recipes.Nodup := distinct.sublist (List.sublist_append_left _ _)
    rcases eq_or_exists_of_append_singleton split with ⟨rfl, rfl⟩ | ⟨rest, rfl, rfl⟩
    · refine iff_of_true (by simp) (blocked.imp_right fun taken => ?_)
      obtain ⟨earlier, member, same⟩ := List.mem_map.1 taken
      exact ⟨earlier, allots.accepted_sublist.subset member, member, same⟩
    · have differs : other ≠ recipe := by
        rintro rfl
        exact fresh (by simp)
      rw [← allots.refused_iff before front other rest rfl]
      simp [differs]

end Allots

/-- What adapters, errors and taken files say about the recipes so far. -/
structure Progress.Follows (progress : Progress) (declarationModule : String)
    (recipes accepted refused : List RecipeSchema) : Prop where
  allots : Allots recipes accepted refused
  units : progress.units = accepted.map (.ofRecipe declarationModule)
  errors : ∀ found ∈ progress.diagnostics, found.severity = .error
  locations : progress.diagnostics.map (·.location) = refused.map fun recipe => some recipe.name
  taken : ∀ stem, stem ∈ progress.taken.map (·.1) ↔ stem ∈ accepted.map (·.fileStem)

/-- One more recipe is accepted or refused. -/
theorem Progress.Follows.add (follows : progress.Follows declarationModule recipes accepted refused)
    (recipe : RecipeSchema) :
    ∃ accepted refused, (progress.add declarationModule recipe).Follows declarationModule
      (recipes ++ [recipe]) accepted refused := by
  by_cases free : progress.IsFree recipe
  · have untaken := free.2
    rw [follows.taken] at untaken
    obtain ⟨units, diagnostics, taken⟩ := add_of_isFree declarationModule free
    refine ⟨accepted ++ [recipe], refused, follows.allots.accept free.1 untaken, ?_, ?_, ?_, ?_⟩
    · rw [units, follows.units, List.map_append, List.map_singleton]
    · rw [diagnostics]
      exact follows.errors
    · rw [diagnostics, follows.locations]
    · intro stem
      rw [taken, List.map_cons, List.mem_cons, follows.taken, List.map_append, List.mem_append,
        List.map_singleton, List.mem_singleton, or_comm]
  · have blocked : recipe.fileStem = Adapter.sharedModule ∨
        recipe.fileStem ∈ accepted.map (·.fileStem) := by
      rw [IsFree, follows.taken, Classical.not_and_iff_not_or_not, Classical.not_not,
        Classical.not_not] at free
      exact free
    obtain ⟨units, taken, found, severe, located, diagnostics⟩ :=
      add_of_not_isFree declarationModule free
    refine ⟨accepted, refused ++ [recipe], follows.allots.refuse blocked, ?_, ?_, ?_, ?_⟩
    · rw [units, follows.units]
    · intro other member
      rw [diagnostics, List.mem_append, List.mem_singleton] at member
      rcases member with before | rfl
      · exact follows.errors other before
      · exact severe
    · rw [diagnostics, List.map_append, follows.locations, List.map_append, List.map_singleton,
        List.map_singleton, located]
    · rw [taken]
      exact follows.taken

theorem Progress.Follows.foldl (follows : progress.Follows declarationModule recipes accepted refused)
    (rest : List RecipeSchema) :
    ∃ accepted refused, (rest.foldl (Progress.add declarationModule) progress).Follows
      declarationModule (recipes ++ rest) accepted refused := by
  induction rest generalizing progress recipes accepted refused with
  | nil =>
    rw [List.append_nil]
    exact ⟨accepted, refused, follows⟩
  | cons recipe rest ih =>
    obtain ⟨accepted, refused, next⟩ := follows.add recipe
    obtain ⟨accepted, refused, final⟩ := ih next
    rw [List.append_assoc, List.singleton_append] at final
    rw [List.foldl_cons]
    exact ⟨accepted, refused, final⟩

theorem Progress.follows_start (declarationModule : String) :
    Progress.start.Follows declarationModule [] [] [] where
  allots := .nil
  units := rfl
  errors := by simp [start]
  locations := rfl
  taken _ := Iff.rfl

/-- The adapters of some recipes and the errors about them are those of an allotment. -/
theorem exists_allots (declarations adapters : String) (recipes : List RecipeSchema) :
    ∃ accepted refused, Allots recipes accepted refused ∧
      (ofRecipes declarations adapters recipes).units =
        accepted.map (.ofRecipe (Adapter.declarationModule declarations adapters)) ∧
      (∀ found ∈ (ofRecipes declarations adapters recipes).diagnostics,
        found.severity = .error) ∧
      (ofRecipes declarations adapters recipes).diagnostics.map (·.location) =
        refused.map fun recipe => some recipe.name := by
  obtain ⟨accepted, refused, follows⟩ :=
    (Progress.follows_start (Adapter.declarationModule declarations adapters)).foldl recipes
  rw [List.nil_append] at follows
  exact ⟨accepted, refused, follows.allots, follows.units, follows.errors, follows.locations⟩

theorem exists_recipe_of_mem {declarations adapters : String} {adapter : AdapterUnit}
    (member : adapter ∈ (ofRecipes declarations adapters recipes).units) :
    ∃ recipe ∈ recipes, adapter.recipe = recipe.name ∧
      adapter.source = (Adapter.sourceFile (Adapter.declarationModule declarations adapters)
        recipe).text .script := by
  obtain ⟨accepted, refused, allots, units, -⟩ := exists_allots declarations adapters recipes
  rw [units] at member
  obtain ⟨recipe, accepts, rfl⟩ := List.mem_map.1 member
  exact ⟨recipe, allots.accepted_sublist.subset accepts, rfl, rfl⟩

theorem units_ofRecipes_singleton {declarations adapters : String}
    (free : recipe.fileStem ≠ Adapter.sharedModule) :
    (ofRecipes declarations adapters [recipe]).units =
      [⟨recipe.name, (AdapterNames.ofName recipe.name).fileName,
        (Adapter.sourceFile (Adapter.declarationModule declarations adapters) recipe).text
          .script⟩] := by
  have alone : Progress.start.IsFree recipe := ⟨free, List.not_mem_nil⟩
  rw [ofRecipes, List.foldl_cons, List.foldl_nil, (Progress.add_of_isFree _ alone).1]
  rfl

theorem Allots.mem_or_mem (allots : Allots recipes accepted refused) (listed : recipe ∈ recipes) :
    recipe ∈ accepted ∨ recipe ∈ refused :=
  List.mem_append.1 (allots.perm.mem_iff.2 listed)

theorem Allots.not_both (allots : Allots recipes accepted refused) (distinct : recipes.Nodup)
    (kept : recipe ∈ accepted) : recipe ∉ refused :=
  (List.nodup_append'.1 (allots.perm.nodup_iff.2 distinct)).2.2 kept

/-- Adapters that are made have files with different names. -/
theorem Allots.nodup_fileNames (allots : Allots recipes accepted refused) :
    ((accepted.map (AdapterUnit.ofRecipe declarationModule)).map (·.fileName)).Nodup := by
  have fileNames : (accepted.map (AdapterUnit.ofRecipe declarationModule)).map (·.fileName) =
      (accepted.map (·.fileStem)).map (· ++ ".ts") := by
    rw [List.map_map, List.map_map]
    rfl
  rw [fileNames]
  exact allots.distinct.map fun _ _ same => (String.append_left_inj ".ts").1 same

/-- Where the names of recipes are distinct, a recipe is in a part of their list exactly when its
name is. -/
theorem mem_map_name_iff {part : List RecipeSchema} (distinct : (recipes.map (·.name)).Nodup)
    (inside : part.Sublist recipes) (listed : recipe ∈ recipes) :
    recipe.name ∈ part.map (·.name) ↔ recipe ∈ part := by
  refine ⟨fun named => ?_, List.mem_map_of_mem⟩
  obtain ⟨other, member, same⟩ := List.mem_map.1 named
  exact List.inj_on_of_nodup_map distinct (inside.subset member) listed same ▸ member

/-- The recipes that have an adapter, in the order of the adapters. -/
def written (set : AdapterSet) : List String :=
  set.units.map (·.recipe)

/-- The recipes that have an error, in the order of the errors. -/
def reported (set : AdapterSet) : List (Option String) :=
  set.diagnostics.map (·.location)

/-- Every recipe of a list is accounted for, and so is the way in which it is. -/
structure AccountsFor (set : AdapterSet) (recipes : List RecipeSchema) : Prop where
  /-- A recipe has one adapter and no error, or one error and no adapter. -/
  each : ∀ recipe ∈ recipes,
    (set.written.count recipe.name = 1 ∧ set.reported.count (some recipe.name) = 0) ∨
      (set.written.count recipe.name = 0 ∧ set.reported.count (some recipe.name) = 1)
  /-- Adapters are for recipes of the list, in its order. -/
  written : set.written.Sublist (recipes.map (·.name))
  /-- Whatever is reported is an error at a recipe of the list, in its order. -/
  reported : set.reported.Sublist (recipes.map fun recipe => some recipe.name)
  errors : ∀ found ∈ set.diagnostics, found.severity = .error
  /-- No two files have the same name, and none has that of the shared module. -/
  files : (set.units.map (·.fileName)).Nodup
  free : Adapter.sharedModule ++ ".ts" ∉ set.units.map (·.fileName)
  /-- A recipe is reported when its file belongs to the shared module or to an adapter of an earlier
  recipe, and for no other reason. -/
  reported_iff : ∀ front recipe back, recipes = front ++ recipe :: back →
    (some recipe.name ∈ set.reported ↔ recipe.fileStem = Adapter.sharedModule ∨
      ∃ earlier ∈ front, earlier.name ∈ set.written ∧ earlier.fileStem = recipe.fileStem)

theorem Allots.accountsFor (allots : Allots recipes accepted refused)
    (distinct : (recipes.map (·.name)).Nodup) {set : AdapterSet}
    (units : set.units = accepted.map (.ofRecipe declarationModule))
    (errors : ∀ found ∈ set.diagnostics, found.severity = .error)
    (locations : set.diagnostics.map (·.location) = refused.map fun recipe => some recipe.name) :
    set.AccountsFor recipes := by
  have written : set.written = accepted.map (·.name) := by
    rw [AdapterSet.written, units, List.map_map]
    rfl
  have reported : set.reported = (refused.map (·.name)).map some := by
    rw [AdapterSet.reported, locations, List.map_map]
    rfl
  have kept : (accepted.map (·.name)).Nodup := distinct.sublist (allots.accepted_sublist.map _)
  have left : (refused.map (·.name)).Nodup := distinct.sublist (allots.refused_sublist.map _)
  have isWritten : ∀ recipe ∈ recipes, recipe.name ∈ set.written ↔ recipe ∈ accepted :=
    fun recipe listed => written ▸ mem_map_name_iff distinct allots.accepted_sublist listed
  have isReported : ∀ recipe ∈ recipes, some recipe.name ∈ set.reported ↔ recipe ∈ refused := by
    intro recipe listed
    rw [reported, List.mem_map_of_injective (Option.some_injective _),
      mem_map_name_iff distinct allots.refused_sublist listed]
  constructor
  case each =>
    intro recipe listed
    have apart : recipe ∈ accepted → recipe ∉ refused := allots.not_both (.of_map _ distinct)
    rcases allots.mem_or_mem listed with accepts | refuses
    · refine .inl ⟨List.count_eq_one_of_mem (written ▸ kept) ((isWritten recipe listed).2 accepts),
        List.count_eq_zero_of_not_mem fun told => ?_⟩
      exact apart accepts ((isReported recipe listed).1 told)
    · refine .inr ⟨List.count_eq_zero_of_not_mem fun made => ?_,
        List.count_eq_one_of_mem ?_ ((isReported recipe listed).2 refuses)⟩
      · exact apart ((isWritten recipe listed).1 made) refuses
      · rw [reported]
        exact left.map (Option.some_injective _)
  case written => exact written ▸ allots.accepted_sublist.map _
  case reported =>
    rw [AdapterSet.reported, locations]
    exact allots.refused_sublist.map _
  case errors => exact errors
  case files =>
    rw [units]
    exact allots.nodup_fileNames
  case free =>
    rw [units]
    intro shared
    obtain ⟨unit, member, same⟩ := List.mem_map.1 shared
    obtain ⟨recipe, accepts, rfl⟩ := List.mem_map.1 member
    exact allots.free recipe accepts ((String.append_left_inj ".ts").1 same)
  case reported_iff =>
    intro front recipe back split
    have listed : recipe ∈ recipes := by simp [split]
    rw [isReported recipe listed,
      allots.refused_iff (.of_map _ distinct) front recipe back split]
    refine or_congr_right (exists_congr fun earlier => and_congr_right fun before => ?_)
    rw [isWritten earlier (by simp [split, before])]

/-- Recipes with different names are all accounted for, and each adapter is the one that its recipe
gets when it is alone. -/
theorem adapters_account_for_recipes {recipes : List RecipeSchema}
    (distinct : (recipes.map (·.name)).Nodup) (declarations adapters : String) :
    (ofRecipes declarations adapters recipes).AccountsFor recipes ∧
      ∀ recipe ∈ recipes, ∀ unit ∈ (ofRecipes declarations adapters recipes).units,
        unit.recipe = recipe.name → (ofRecipes declarations adapters [recipe]).units = [unit] := by
  obtain ⟨accepted, refused, allots, units, errors, locations⟩ :=
    exists_allots declarations adapters recipes
  refine ⟨allots.accountsFor distinct units errors locations, ?_⟩
  intro recipe listed unit member same
  rw [units] at member
  obtain ⟨other, accepts, rfl⟩ := List.mem_map.1 member
  obtain rfl := List.inj_on_of_nodup_map distinct (allots.accepted_sublist.subset accepts) listed same
  exact units_ofRecipes_singleton (allots.free other accepts)

/-- Recipes of which two ask for one file, and one asks for that of the shared module. -/
def crowdedRecipes : List RecipeSchema :=
  ["a.X", "b.X", "b.Runtime", "b.Y"].map fun name => ⟨name, name, "", [], none⟩

theorem crowdedRecipes_accounted :
    (crowdedRecipes.map (·.name)).Nodup ∧
      (ofRecipes "types.d.ts" "adapters" crowdedRecipes).written = ["a.X", "b.Y"] ∧
      (ofRecipes "types.d.ts" "adapters" crowdedRecipes).reported =
        [some "b.X", some "b.Runtime"] ∧
      (ofRecipes "types.d.ts" "adapters" crowdedRecipes).AccountsFor crowdedRecipes ∧
      ∃ unit ∈ (ofRecipes "types.d.ts" "adapters" crowdedRecipes).units,
        (ofRecipes "types.d.ts" "adapters" [⟨"b.Y", "b.Y", "", [], none⟩]).units =
          [unit] := by
  have distinct : (crowdedRecipes.map (·.name)).Nodup := by decide
  have first : (AdapterNames.ofName "a.X").file = "x" := rfl
  have second : (AdapterNames.ofName "b.X").file = "x" := rfl
  have shared : (AdapterNames.ofName "b.Runtime").file = "runtime" := rfl
  have last : (AdapterNames.ofName "b.Y").file = "y" := rfl
  have written : (ofRecipes "types.d.ts" "adapters" crowdedRecipes).written =
      ["a.X", "b.Y"] := by
    simp [ofRecipes, crowdedRecipes, Progress.start, Progress.add, first, second, shared, last,
      Adapter.sharedModule, AdapterSet.written]
  have reported : (ofRecipes "types.d.ts" "adapters" crowdedRecipes).reported =
      [some "b.X", some "b.Runtime"] := by
    simp [ofRecipes, crowdedRecipes, Progress.start, Progress.add, first, second, shared, last,
      Adapter.sharedModule, AdapterSet.reported, refusal]
  obtain ⟨accounted, alone⟩ := adapters_account_for_recipes distinct "types.d.ts" "adapters"
  have pruned : "b.Y" ∈ (ofRecipes "types.d.ts" "adapters" crowdedRecipes).written := by
    simp [written]
  obtain ⟨unit, member, same⟩ := List.mem_map.1 pruned
  refine ⟨distinct, written, reported, accounted, unit, member, ?_⟩
  exact alone _ (by simp [crowdedRecipes]) unit member same

end AdapterSet

end TypeBridge
