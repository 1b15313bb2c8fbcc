import TypeBridge.Graph.TypeGraph
import TypeBridge.Host.HostModel
import TypeBridge.Pass.Diagnostic
import TypeBridge.Recipe.Draft
import TypeBridge.Recipe.Schema

/-!
# Extracting recipes

The rules that recipes keep, and the schemas of those that keep them.
-/

namespace TypeBridge

/-- The model and the declaration closure that recipes refer to. -/
structure RecipeContext where
  model : HostModel
  graph : TypeGraph

/-- Why a signature is no type of an option. -/
inductive OptionFault where
  | unsupported (signature : Signature)
  | outsideClosure (name : String)
  | nestedList (signature : Signature)

def OptionFault.message : OptionFault → String
  | .unsupported signature => "unsupported option type `" ++ signature.text ++ "`"
  | .outsideClosure name => "host type '" ++ name ++ "' is not in the declaration closure"
  | .nestedList signature =>
    "nested list `" ++ signature.text ++ "` is not a supported option type"

namespace RecipeContext

/-- A list of some elements, which may not be lists. -/
def listOf (element : Signature) : Except OptionFault OptionType → Except OptionFault OptionType
  | .error fault => .error fault
  | .ok (.list _) => .error (.nestedList element)
  | .ok type => .ok (.list type)

/-- The option type of a host type that is not built in. -/
def hostOption (context : RecipeContext) (name : String) : Except OptionFault OptionType :=
  match (context.model.get? name).filter (·.kind == .enum) with
  | some type => .ok (.enum type.constants)
  | none => if context.graph.contains name then .ok (.host name) else .error (.outsideClosure name)

/-- The option type of a named signature.  `only` holds its argument, when it has a single one, with
the option type of that. -/
def namedOption (context : RecipeContext) (signature : Signature) (name : String)
    (only : Option (Signature × Except OptionFault OptionType)) :
    Except OptionFault OptionType :=
  match Builtin.ofName? name, only with
  | none, _ => context.hostOption name
  | some (.primitive .string), _ => .ok .string
  | some (.primitive .number), _ => .ok .number
  | some (.primitive .boolean), _ => .ok .boolean
  | some .optional, some (_, inner) => inner
  | some .array, some (element, inner) | some .set, some (element, inner) => listOf element inner
  | some _, _ => .error (.unsupported signature)

/-- The option type of a signature. -/
def optionType (context : RecipeContext) : Signature → Except OptionFault OptionType
  | .array element => listOf element (context.optionType element)
  | .named name [arg] =>
    context.namedOption (.named name [arg]) name (some (arg, context.optionType arg))
  | .named name args => context.namedOption (.named name args) name none
  | signature => .error (.unsupported signature)

end RecipeContext

/-- A rule that recipes keep: it is shown the findings of the rules before and adds its own. -/
structure RecipeRule where
  name : String
  description : String
  check : RecipeContext → RecipeDraft → List Diagnostic → List Diagnostic

/-- What some rules find in a recipe, one after another. -/
def RecipeRule.findings (rules : List RecipeRule) (context : RecipeContext) (recipe : RecipeDraft) :
    List Diagnostic :=
  rules.foldl (fun found rule => rule.check context recipe found) []

/-- The rules that every recipe is held to by default. -/
inductive BuiltinRule where
  | metadata
  | duplicateOption
  | requiredExample
  | optionType
  | visitorTarget
  | emptyDescription
  deriving DecidableEq, Repr

namespace BuiltinRule

/-- All rules in the order of their application. -/
def all : List BuiltinRule :=
  [metadata, duplicateOption, requiredExample, optionType, visitorTarget, emptyDescription]

def name : BuiltinRule → String
  | metadata => "recipe-metadata"
  | duplicateOption => "duplicate-option"
  | requiredExample => "required-example"
  | optionType => "option-type"
  | visitorTarget => "visitor-target"
  | emptyDescription => "empty-option-description"

def description : BuiltinRule → String
  | metadata => "Require a display name and a description on every recipe"
  | duplicateOption => "Require option names to be unique within a recipe"
  | requiredExample => "Require an example value on every required option"
  | optionType => "Require option types to be scalars, enums, lists or types in the closure"
  | visitorTarget => "Require visitors to target a node type in the declaration closure"
  | emptyDescription => "Warn about options without a description"

/-- Only the last rule is a matter of taste. -/
def severity : BuiltinRule → Severity
  | emptyDescription => .warning
  | _ => .error

/-- Whether a text is absent or says nothing. -/
def saysNothing (text : Option String) : Bool :=
  text.all Text.isBlankText

/-- What a recipe breaks the rule with. -/
def complaints (context : RecipeContext) (recipe : RecipeDraft) : BuiltinRule → List String
  | metadata =>
    (if saysNothing recipe.displayName then ["recipe has no display name"] else []) ++
      (if saysNothing recipe.description then ["recipe has no description"] else [])
  | duplicateOption =>
    recipe.duplicates.map fun name => "option '" ++ name ++ "' is declared more than once"
  | requiredExample =>
    (recipe.options.filter fun option => option.isRequired && !option.hasExample).map
      fun option => "required option '" ++ option.name ++ "' has no example"
  | optionType =>
    recipe.options.filterMap fun option =>
      match context.optionType option.type with
      | .ok _ => none
      | .error fault => some ("option '" ++ option.name ++ "': " ++ fault.message)
  | visitorTarget =>
    match recipe.visitor with
    | none => []
    | some none => ["visitor does not declare a target node type"]
    | some (some target) =>
      if context.graph.contains target then []
      else ["visitor target '" ++ target ++ "' is not in the declaration closure"]
  | emptyDescription =>
    (recipe.options.filter fun option => saysNothing option.description).map
      fun option => "option '" ++ option.name ++ "' has no description"

def finding (rule : BuiltinRule) (recipe message : String) : Diagnostic where
  severity := rule.severity
  phase := "extract"
  message
  location := some recipe
  rule := some rule.name

/-- The findings of a rule on a recipe. -/
def findings (context : RecipeContext) (recipe : RecipeDraft) (rule : BuiltinRule) :
    List Diagnostic :=
  (rule.complaints context recipe).map (rule.finding recipe.name)

/-- The rule as one among others. -/
def rule (builtin : BuiltinRule) : RecipeRule where
  name := builtin.name
  description := builtin.description
  check context recipe found := found ++ builtin.findings context recipe

end BuiltinRule

namespace RecipeRule

/-- The rules of a pass. -/
def all : List RecipeRule :=
  BuiltinRule.all.map (·.rule)

/-- The only rule of a pass that is a matter of taste. -/
def emptyDescription : RecipeRule :=
  BuiltinRule.emptyDescription.rule

end RecipeRule

/-- The schema of an option, or what its type breaks the rule on option types with. -/
def OptionDraft.schema (context : RecipeContext) (option : OptionDraft) :
    Except String OptionSchema :=
  match context.optionType option.type with
  | .error fault => .error ("option '" ++ option.name ++ "': " ++ fault.message)
  | .ok type => .ok {
      name := option.name
      type
      displayName := option.displayName.getD option.name
      description := option.description.getD ""
      example? := option.example?.filter fun text => !Text.isBlankText text
      required := option.isRequired }

/-- The schema of a recipe. -/
def RecipeDraft.schema (context : RecipeContext) (recipe : RecipeDraft) :
    Except String RecipeSchema := do
  let options ← recipe.options.mapM (·.schema context)
  let target? := recipe.visitor.join.filter context.graph.contains
  return {
    name := recipe.name
    displayName := recipe.displayName.getD ""
    description := recipe.description.getD ""
    options
    visitor := target?.map fun target => ⟨target, context.graph.subtypesOf target⟩ }

/-- What extracting some recipes yields. -/
structure Extraction where
  recipes : List RecipeSchema
  diagnostics : List Diagnostic

namespace Extraction

def empty : Extraction :=
  ⟨[], []⟩

def append (first second : Extraction) : Extraction :=
  ⟨first.recipes ++ second.recipes, first.diagnostics ++ second.diagnostics⟩

/-- Extract one recipe.  A recipe that breaks a rule has no schema. -/
def ofDraft (context : RecipeContext) (rules : List RecipeRule) (recipe : RecipeDraft) :
    Extraction :=
  let found := RecipeRule.findings rules context recipe
  if found.any (·.severity == .error) then ⟨[], found⟩
  else
    match recipe.schema context with
    | .ok schema => ⟨[schema], found⟩
    | .error message =>
      ⟨[], found ++ [BuiltinRule.optionType.finding recipe.name message]⟩

/-- Extract the recipes of some names, as far as the model has them. -/
def ofNames (context : RecipeContext) (rules : List RecipeRule) (names : List String) :
    Extraction :=
  (names.filterMap context.model.get?).foldr
    (fun type rest => (ofDraft context rules (RecipeDraft.ofType type)).append rest) empty

end Extraction

end TypeBridge
