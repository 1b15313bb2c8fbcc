import TypeBridge.Adapter.Naming
import TypeBridge.Script.Statement

/-!
# The module that all adapters share

The types of the bridge between scripts and the host, the check of options against a descriptor,
and the table of visit callbacks.
-/

namespace TypeBridge.Adapter

open Script (SourceFile Statement)

namespace SharedModule

/-- Code in braces behind a header. -/
def braced (header : String) (body : List Fragment) : Fragment :=
  .block (header ++ " \x7b") body (some "\x7d")

def inBraces (content : String) : String :=
  "\x7b " ++ content ++ " \x7d"

def hole (code : String) : String :=
  "$\x7b" ++ code ++ "\x7d"

def template (parts : List String) : String :=
  "`" ++ String.join parts ++ "`"

/-- Where a traversal is. -/
def visitContext : Statement :=
  .interface
    ⟨"VisitContext", some "Where the traversal is, plus a message map shared along it.", []⟩
    [] [⟨some "Node type names from the root to the current node.",
        .property true "path" false "readonly string[]"⟩,
      ⟨none, .method "get" false ["T"] [⟨"key", "string"⟩] "T | undefined"⟩,
      ⟨none, .method "put" false [] [⟨"key", "string"⟩, ⟨"value", "unknown"⟩] "void"⟩]

/-- What is called at a node. -/
def visitCallback : Statement :=
  .typeAlias ⟨"VisitCallback",
      some "Returns a replacement node, or null/undefined to keep the visited one.", ["T"]⟩
    "(node: T, ctx: VisitContext) => T | null | undefined"

/-- What the host offers. -/
def recipeHost : Statement :=
  .interface ⟨"RecipeHost", some "The host side of the bridge.", []⟩
    [] [⟨none, .method "construct" false []
      [⟨"qualifiedName", "string"⟩, ⟨"args", "readonly unknown[]"⟩] "unknown"⟩]

/-- The types of options. -/
def optionValueType : Fragment :=
  .block "export type OptionValueType =" [
    .line ("| " ++ inBraces "type: \"string\""),
    .line ("| " ++ inBraces "type: \"number\""),
    .line ("| " ++ inBraces "type: \"boolean\""),
    .line ("| " ++ inBraces "type: \"enum\"; values: readonly string[]"),
    .line ("| " ++ inBraces "type: \"list\"; element: OptionValueType"),
    .line ("| " ++ inBraces "type: \"host\"; name: string" ++ ";")] none

/-- What is known of an option. -/
def optionDescriptor : Statement :=
  .interface ⟨"OptionDescriptor", none, []⟩
    [] [⟨none, .property false "name" false "string"⟩,
      ⟨none, .property false "displayName" false "string"⟩,
      ⟨none, .property false "description" false "string"⟩,
      ⟨none, .property false "example" true "string"⟩,
      ⟨none, .property false "required" false "boolean"⟩,
      ⟨none, .property false "valueType" false "OptionValueType"⟩]

/-- What is known of a recipe. -/
def recipeDescriptor : Statement :=
  .interface ⟨"RecipeDescriptor", none, []⟩
    [] [⟨none, .property false "name" false "string"⟩,
      ⟨none, .property false "displayName" false "string"⟩,
      ⟨none, .property false "description" false "string"⟩,
      ⟨none, .property false "options" false "readonly OptionDescriptor[]"⟩]

/-- The error about an option. -/
def optionError : Fragment :=
  braced "export class OptionError extends Error" [
    .block "constructor(" [
      .line "readonly recipe: string,",
      .line "readonly option: string,",
      .line "detail: string,"] none,
    braced ")" [
      .line ("super(" ++
        template [hole "recipe", ": option '", hole "option", "' ", hole "detail"] ++ ");"),
      .line "this.name = \"OptionError\";"]]

/-- Whether a value has the type of an option. -/
def matchesFunction : Fragment :=
  braced "function matches(value: unknown, type: OptionValueType): boolean" [
    braced "switch (type.type)" [
      .line "case \"string\":",
      .line "case \"number\":",
      .block "case \"boolean\":" [.line "return typeof value === type.type;"] none,
      .block "case \"enum\":"
        [.line "return typeof value === \"string\" && type.values.includes(value);"] none,
      .block "case \"list\":" [
        .line ("return Array.isArray(value) && " ++
          "value.every((item) => matches(item, type.element));")] none,
      .block "case \"host\":"
        [.line "return typeof value === \"object\" && value !== null;"] none]]

/-- The type of an option in words. -/
def describeFunction : Fragment :=
  braced "function describe(type: OptionValueType): string" [
    braced "switch (type.type)" [
      .block "case \"enum\":"
        [.line ("return " ++ template ["one of ", hole "type.values.join(\", \")"] ++ ";")] none,
      .block "case \"list\":"
        [.line ("return " ++ template ["a list of ", hole "describe(type.element)"] ++ ";")] none,
      .block "case \"host\":"
        [.line ("return " ++ template ["a ", hole "type.name"] ++ ";")] none,
      .block "default:"
        [.line ("return " ++ template ["a ", hole "type.type"] ++ ";")] none]]

/-- The check of options, which lists their values. -/
def validateFunction : List Fragment := [
  .comment ("Check options against a descriptor and return their values in\n" ++
    "declaration order. Absent optional options become null."),
  braced ("export function validateOptions(" ++
      "descriptor: RecipeDescriptor, options: object): unknown[]") [
    .line "const values = options as Record<string, unknown>;",
    .block "return descriptor.options.map((option) => \x7b" [
      .line "const value = values[option.name];",
      braced "if (value === undefined || value === null)" [
        braced "if (option.required)" [
          .line "throw new OptionError(descriptor.name, option.name, \"is required\");"],
        .line "return null;"],
      braced "if (!matches(value, option.valueType))" [
        .line ("throw new OptionError(descriptor.name, option.name, " ++
          template ["must be ", hole "describe(option.valueType)"] ++ ");")],
      .line "return value;"] (some "\x7d);")]]

/-- The table of callbacks. -/
def visitorTable : List Fragment := [
  .comment "Visit callbacks keyed by host node type name.",
  braced "export class VisitorTable" [
    .line "private readonly callbacks = new Map<string, VisitCallback<unknown>>();",
    .blank,
    braced "register<T>(types: readonly string[], callback: VisitCallback<T>): void" [
      braced "for (const type of types)" [
        .line "this.callbacks.set(type, callback as unknown as VisitCallback<unknown>);"]],
    .blank,
    braced "has(typeName: string): boolean" [.line "return this.callbacks.has(typeName);"],
    .blank,
    .comment "Run the callback for `typeName`; the node is kept unless it returns a replacement.",
    braced "dispatch(typeName: string, node: unknown, ctx: VisitContext): unknown" [
      .line "const callback = this.callbacks.get(typeName);",
      braced "if (callback === undefined)" [.line "return node;"],
      .line "const result = callback(node, ctx);",
      .line "return result === null || result === undefined ? node : result;"]]]

def sourceFile : SourceFile :=
  .ofParts [] [visitContext.fragments, visitCallback.fragments, recipeHost.fragments,
    [optionValueType], optionDescriptor.fragments, recipeDescriptor.fragments, [optionError],
    [matchesFunction], [describeFunction], validateFunction, visitorTable]

def source : String :=
  sourceFile.text .script

end SharedModule

def sharedFileName : String :=
  sharedModule ++ ".ts"

end TypeBridge.Adapter
