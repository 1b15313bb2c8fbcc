import TypeBridge.Recipe.Schema
import TypeBridge.Script.Literal

/-!
# Recipe descriptors

The literal that describes a recipe to the shared module, which checks options against it.
-/

namespace TypeBridge

open Script (Literal)

def OptionType.descriptor : OptionType → Literal
  | .string => .object [("type", .text "string")]
  | .number => .object [("type", .text "number")]
  | .boolean => .object [("type", .text "boolean")]
  | .enum values =>
    .object [("type", .text "enum"), ("values", .array (values.map .text))]
  | .list element => .object [("type", .text "list"), ("element", element.descriptor)]
  | .host name => .object [("type", .text "host"), ("name", .text name)]

def OptionSchema.descriptor (option : OptionSchema) : Literal :=
  let example? := option.example?.toList.map fun text => ("example", Literal.text text)
  .object ([("name", .text option.name), ("displayName", .text option.displayName),
      ("description", .text option.description)] ++ example? ++
    [("required", .raw (toString option.required)), ("valueType", option.type.descriptor)])

def RecipeSchema.descriptor (recipe : RecipeSchema) : Literal :=
  .object [("name", .text recipe.name), ("displayName", .text recipe.displayName),
    ("description", .text recipe.description),
    ("options", .array (recipe.options.map (·.descriptor)))]

end TypeBridge
