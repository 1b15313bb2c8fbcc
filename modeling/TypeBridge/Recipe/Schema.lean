import TypeBridge.Recipe.OptionType

/-!
# Recipe schemas

What a script has to know about a recipe.
-/

namespace TypeBridge

structure OptionSchema where
  name : String
  type : OptionType
  displayName : String
  description : String
  example? : Option String
  required : Bool
  deriving DecidableEq, Repr

/-- The type that a recipe visits, with its subtypes in discovery order. -/
structure VisitorSchema where
  target : String
  subtypes : List String
  deriving DecidableEq, Repr

/-- A recipe with its options. -/
structure RecipeSchema where
  name : String
  displayName : String
  description : String
  options : List OptionSchema
  visitor : Option VisitorSchema
  deriving DecidableEq, Repr

namespace RecipeSchema

/-- The options that a script must supply. -/
def requiredOptions (recipe : RecipeSchema) : List OptionSchema :=
  recipe.options.filter (·.required)

def option? (recipe : RecipeSchema) (name : String) : Option OptionSchema :=
  recipe.options.find? (·.name == name)

end RecipeSchema

end TypeBridge
