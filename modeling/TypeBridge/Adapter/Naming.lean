import TypeBridge.Disk.Path
import TypeBridge.Host.Name
import TypeBridge.Recipe.Schema
import TypeBridge.Script.Naming

/-!
# Names in adapters

The names that the adapter of a recipe exports, and the name by which it imports the declarations.
-/

namespace TypeBridge

/-- The module that all adapters share. -/
def Adapter.sharedModule : String := "runtime"

/-- The names of an adapter, made from the names of the recipe and the types around it. -/
structure AdapterNames where
  type : String
  value : String
  file : String
  deriving DecidableEq, Repr

namespace AdapterNames

def ofName (name : String) : AdapterNames :=
  let base := String.join (Name.path name)
  ⟨Script.typeName base, Script.valueName base, Script.fileStem base⟩

def fileName (names : AdapterNames) : String :=
  names.file ++ ".ts"

def options (names : AdapterNames) : String :=
  names.type ++ "Options"

def descriptor (names : AdapterNames) : String :=
  names.value ++ "Descriptor"

def construct (names : AdapterNames) : String :=
  "create" ++ names.type

def visit (names : AdapterNames) : String :=
  names.type ++ "Visit"

def register (names : AdapterNames) : String :=
  "register" ++ names.type ++ "Visitor"

end AdapterNames

/-- A declaration file without the ending of such files. -/
def Adapter.declarationStem (file : String) : List Char :=
  let chars := file.toList
  let ending := ".d.ts".toList
  if ending.isSuffixOf chars then chars.take (chars.length - ending.length) else chars

/-- What an adapter imports the declarations from: a way out of the folder of the adapters, then
the declaration file with its separators turned. -/
def Adapter.declarationModule (declarations adapters : String) : String :=
  let out :=
    match Path.depth adapters with
    | 0 => "./"
    | depth => String.join (List.replicate depth "../")
  out ++ String.ofList ((declarationStem declarations).map fun c => if c = '\\' then '/' else c)

/-- The outermost types that a recipe mentions: host types of options, then the visited type. -/
def RecipeSchema.outermostTypes (recipe : RecipeSchema) : List String :=
  let hosts := recipe.options.flatMap (·.type.hosts)
  let target := recipe.visitor.toList.map (·.target)
  ((hosts ++ target).map fun name => (Name.path name).head?.getD "").eraseDups

end TypeBridge
