import TypeBridge.Adapter.Descriptor
import TypeBridge.Adapter.Naming
import TypeBridge.Script.Statement

/-!
# The source of an adapter

A typed options interface, the descriptor of the recipe, a function that constructs it, and for a
recipe that visits nodes a function that registers a callback.
-/

namespace TypeBridge

namespace Adapter

open Script (DocumentedMember Import Imported Literal SourceFile Statement Typed)

/-- The property of an option.  An optional one may be absent or null. -/
def optionMember (option : OptionSchema) : DocumentedMember where
  doc := if option.description.isEmpty then none else some option.description
  content :=
    if option.required then .property false option.name false option.type.text
    else .property false option.name true (option.type.text ++ " | null")

def declarationImport (source : String) (recipe : RecipeSchema) : Import where
  source
  default := none
  names := recipe.outermostTypes.map fun name => ⟨name, false⟩
  onlyTypes := true

def sharedImport (recipe : RecipeSchema) : Import where
  source := "./" ++ sharedModule
  default := none
  names :=
    [⟨"validateOptions", false⟩, ⟨"RecipeDescriptor", true⟩, ⟨"RecipeHost", true⟩] ++
      if recipe.visitor.isSome then [⟨"VisitCallback", true⟩, ⟨"VisitorTable", true⟩] else []
  onlyTypes := false

/-- What every adapter exports. -/
def recipeStatements (names : AdapterNames) (recipe : RecipeSchema) : List Statement :=
  [.interface ⟨names.options, some ("Options of " ++ recipe.displayName ++ "."), []⟩ []
      (recipe.options.map optionMember),
    .const names.descriptor (some "RecipeDescriptor") none recipe.descriptor,
    .function names.construct
      (some ("Construct " ++ recipe.displayName ++ " through the host."))
      [⟨"host", "RecipeHost"⟩, ⟨"options", names.options⟩] (some "unknown")
      ["return host.construct(" ++ names.descriptor ++ ".name, validateOptions(" ++
        names.descriptor ++ ", options));"]]

/-- What the adapter of a visiting recipe exports besides. -/
def visitorStatements (names : AdapterNames) (visitor : VisitorSchema) : List Statement :=
  let target := Name.spelled visitor.target
  let types := (visitor.target :: visitor.subtypes).map Text.quoted
  [.typeAlias ⟨names.visit, none, []⟩ ("VisitCallback<" ++ target ++ ">"),
    .function names.register
      (some ("Dispatch " ++ target ++ " nodes and their subtypes to `visit`."))
      [⟨"table", "VisitorTable"⟩, ⟨"visit", names.visit⟩] (some "void")
      ["table.register([" ++ ", ".intercalate types ++ "], visit);"]]

/-- The file of an adapter, which finds the declarations in a module. -/
def sourceFile (declarationModule : String) (recipe : RecipeSchema) : SourceFile :=
  let names := AdapterNames.ofName recipe.name
  let statements := recipeStatements names recipe ++
    recipe.visitor.toList.flatMap (visitorStatements names)
  .ofParts [declarationImport declarationModule recipe, sharedImport recipe]
    (statements.map (·.fragments))

end Adapter

end TypeBridge
