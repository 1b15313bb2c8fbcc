import TypeBridge.Adapter.SharedModule
import TypeBridge.Adapter.Unit
import TypeBridge.Declaration.Unit
import TypeBridge.Pass.Session

/-!
# Rendering a pass

The declaration file, the module that adapters share, and the adapters, all as texts with paths
below the output directory.
-/

namespace TypeBridge

/-- A file to be generated. -/
structure Artifact where
  /-- Relative to the output directory. -/
  path : String
  content : String
  deriving DecidableEq, Repr

/-- What a pass writes. -/
structure Rendering where
  /-- The declaration file. -/
  declarationFile : String
  /-- The folder of the adapters. -/
  adapterFolder : String
  declarations : DeclarationUnit
  adapters : AdapterSet
  deriving DecidableEq, Repr

namespace Rendering

/-- The language of the generated files, and their extension. -/
def language : String × String :=
  ("typescript", "ts")

/-- The first line of every generated file. -/
def banner : String :=
  "// Generated by glot. Do not edit."

def underBanner (body : String) : String :=
  banner ++ "\n\n" ++ body

def ofSession (session : Session) : Except PassFailure Rendering := do
  let graph ← session.graph
  let order ← session.order
  let config := session.config
  let declarations ← (graph.declareAll config.emit order).mapError .fatal
  return {
    declarationFile := config.declarations
    adapterFolder := config.adapters
    declarations
    adapters := .ofRecipes config.declarations config.adapters session.recipes }

/-- The findings about declarations, then those about adapters. -/
def diagnostics (rendering : Rendering) : List Diagnostic :=
  rendering.declarations.diagnostics ++ rendering.adapters.diagnostics

/-- The body of the declaration file, which is a module even when it declares nothing. -/
def declarationBody (rendering : Rendering) : String :=
  let body := rendering.declarations.body
  if body.isEmpty then "export \x7b\x7d;\n" else body

/-- A file in the folder of the adapters. -/
def adapterFile (rendering : Rendering) (name body : String) : Artifact :=
  ⟨Path.join rendering.adapterFolder name, underBanner body⟩

/-- All files in the order of their generation.  Without adapters nothing is shared. -/
def artifacts (rendering : Rendering) : List Artifact :=
  let units := rendering.adapters.units
  let shared :=
    if units.isEmpty then []
    else [rendering.adapterFile Adapter.sharedFileName Adapter.SharedModule.source]
  ⟨rendering.declarationFile, underBanner rendering.declarationBody⟩ :: shared ++
    units.map fun unit => rendering.adapterFile unit.fileName unit.source

end Rendering

end TypeBridge
