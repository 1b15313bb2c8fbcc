import TypeBridge.Adapter.Source
import TypeBridge.Pass.Diagnostic

/-!
# The adapters of a pass

One adapter for each recipe.  A recipe whose file name is taken, or belongs to the shared module,
is reported instead.
-/

namespace TypeBridge

structure AdapterUnit where
  recipe : String
  fileName : String
  source : String
  deriving DecidableEq, Repr

/-- The adapters of a pass, and the errors about them. -/
structure AdapterSet where
  units : List AdapterUnit
  diagnostics : List Diagnostic
  deriving DecidableEq, Repr

namespace AdapterSet

/-- An adapter that cannot be written under its file name. -/
def refusal (recipe fileName reason : String) : Diagnostic where
  severity := .error
  phase := "adapter"
  message := "adapter file '" ++ fileName ++ "' is " ++ reason
  location := some recipe
  rule := some "adapter-file"

/-- The adapters so far, and the recipe behind each file stem that is taken. -/
structure Progress extends AdapterSet where
  taken : List (String × String)
  deriving DecidableEq, Repr

def Progress.start : Progress :=
  ⟨⟨[], []⟩, []⟩

def Progress.add (declarationModule : String) (progress : Progress) (recipe : RecipeSchema) :
    Progress :=
  let names := AdapterNames.ofName recipe.name
  let refuse (reason : String) : Progress :=
    { progress with
      diagnostics := progress.diagnostics ++ [refusal recipe.name names.fileName reason] }
  if names.file = Adapter.sharedModule then refuse "reserved for the runtime"
  else
    match progress.taken.lookup names.file with
    | some first => refuse ("already generated for " ++ first)
    | none =>
      let source := (Adapter.sourceFile declarationModule recipe).text .script
      { progress with
        units := progress.units ++ [⟨recipe.name, names.fileName, source⟩]
        taken := (names.file, recipe.name) :: progress.taken }

/-- The adapters of some recipes, given the declaration file and the folder of the adapters. -/
def ofRecipes (declarations adapters : String) (recipes : List RecipeSchema) : AdapterSet :=
  (recipes.foldl (Progress.add (Adapter.declarationModule declarations adapters))
    .start).toAdapterSet

end AdapterSet

end TypeBridge
