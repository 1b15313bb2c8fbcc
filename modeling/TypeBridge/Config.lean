import TypeBridge.Host.AllowList
import TypeBridge.Host.Schema
import TypeBridge.Toml.Document

/-!
# Configuration

The settings of a project, their defaults, and the rules they keep.
-/

namespace TypeBridge

/-- How supertypes are carried into a declaration. -/
inductive SupertypeStyle where
  /-- `interface X extends A, B`. -/
  | extending
  /-- `type X = A & B & ...`. -/
  | intersecting
  /-- An interface that repeats everything it inherits. -/
  | flattened
  deriving DecidableEq, Repr

def SupertypeStyle.word : SupertypeStyle → String
  | .extending => "extends"
  | .intersecting => "intersection"
  | .flattened => "flatten"

/-- What becomes of declaration-site variance. -/
inductive VariancePolicy where
  | erase
  | preserve
  deriving DecidableEq, Repr

def VariancePolicy.word : VariancePolicy → String
  | .erase => "erase"
  | .preserve => "preserve"

/-- Settings of the declaration file. -/
structure EmitConfig where
  supertypes : SupertypeStyle
  variance : VariancePolicy
  /-- The property that tells the variants of a union apart. -/
  discriminant : String
  deriving DecidableEq, Repr

/-- Settings of a project. -/
structure Config where
  /-- The output directory, relative to the project. -/
  output : String
  /-- The declaration file, relative to the output directory. -/
  declarations : String
  /-- The directory of the adapters, relative to the output directory. -/
  adapters : String
  /-- The snapshot files, relative to the project. -/
  models : List String
  allow : AllowList
  /-- The annotation that marks a declaration root. -/
  marker : String
  /-- Types whose subtypes are declaration roots. -/
  roots : List String
  emit : EmitConfig
  deriving DecidableEq, Repr

namespace Config

open Schema
open Toml (Value)

def plainEmit : EmitConfig where
  supertypes := .extending
  variance := .erase
  discriminant := "kind"

/-- The settings when nothing is said. -/
def plain : Config where
  output := "generated"
  declarations := "types.d.ts"
  adapters := "adapters"
  models := []
  allow := ⟨[]⟩
  marker := "GeneratePolyglot"
  roots := []
  emit := plainEmit

def asEmit : Value → Except Misfit EmitConfig :=
  asRecord [("supertypes", .optional), ("variance", .optional), ("discriminant", .optional)]
    plainEmit fun key value emit =>
    match key with
    | "supertypes" =>
      return { emit with
        supertypes := ← asWord [("extends", .extending), ("intersection", .intersecting),
          ("flatten", .flattened)] value }
    | "variance" =>
      return { emit with
        variance := ← asWord [("erase", .erase), ("preserve", .preserve)] value }
    | "discriminant" => return { emit with discriminant := ← asText value }
    | _ => .error .shape

def asGenerate : Value → Except Misfit Config :=
  asRecord [("output", .optional), ("declarations", .optional), ("adapters", .optional),
      ("models", .needed), ("allow", .optional), ("marker", .optional), ("roots", .optional),
      ("emit", .optional)]
    plain fun key value config =>
    match key with
    | "output" => return { config with output := ← asText value }
    | "declarations" => return { config with declarations := ← asText value }
    | "adapters" => return { config with adapters := ← asText value }
    | "models" => return { config with models := ← asList asText value }
    | "allow" => return { config with allow := ⟨← asList asText value⟩ }
    | "marker" => return { config with marker := ← asText value }
    | "roots" => return { config with roots := ← asList asText value }
    | "emit" => return { config with emit := ← asEmit value }
    | _ => .error .shape

def asConfig : Value → Except Misfit Config :=
  asRecord [("generate", .needed)] plain fun key value _ =>
    if key = "generate" then asGenerate value else .error .shape

/-- The bytes in front of the first occurrence of a word. -/
def offsetOf? (word : List Char) : List Char → Option Nat
  | [] => if word.isEmpty then some 0 else none
  | c :: rest =>
    if word.isPrefixOf (c :: rest) then some 0
    else (offsetOf? word rest).map (· + c.utf8Size)

/-- Where the file first holds a value in double quotes, the quotes apart. -/
def spanOf? (source value : String) : Option Span :=
  (offsetOf? ('"' :: value.toList ++ ['"']) source.toList).map fun offset =>
    ⟨offset + 1, offset + 1 + value.utf8ByteSize⟩

/-- Whether a file name says that it holds declarations. -/
def isDeclarationFile (file : String) : Bool :=
  ".d.ts".toList.isSuffixOf file.toList

/-- The first broken rule, with the value that breaks it. -/
def brokenRule? (config : Config) : Option (BrokenRule × Option String) :=
  let noModels :=
    if config.models.isEmpty then some (BrokenRule.noModels, none) else none
  let declarationFile :=
    if isDeclarationFile config.declarations then none
    else some (.declarationFile config.declarations, some config.declarations)
  let allowEntry := config.allow.namespaces.findSome? fun entry =>
    (Name.fault? entry).map fun _ => (BrokenRule.allowEntry entry, some entry)
  let rootName := config.roots.findSome? fun root =>
    (Name.fault? root).map fun fault => (BrokenRule.rootName root fault, some root)
  let word := config.emit.discriminant
  let discriminant := (Name.identifierFault? word.toList).map fun fault =>
    (BrokenRule.discriminant word fault, some word)
  noModels.or (declarationFile.or (allowEntry.or (rootName.or discriminant)))

def read (file text : String) : Except InputError Config :=
  match Toml.document? text with
  | none => .error (.malformed file none)
  | some table =>
    match asConfig (.table table) with
    | .error misfit => .error (.malformed file misfit.signature)
    | .ok config =>
      match config.brokenRule? with
      | some (rule, value) => .error (.broken rule (value.bind (spanOf? text)))
      | none => .ok config

end Config

end TypeBridge
