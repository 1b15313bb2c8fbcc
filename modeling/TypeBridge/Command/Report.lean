import TypeBridge.Pass.Diagnostic
import TypeBridge.Pass.Rendering
import TypeBridge.Project.Generation

/-!
# Reports

What the program prints: results on one stream, findings on another.
-/

namespace TypeBridge

/-- A printed line. -/
inductive ReportLine where
  | result (text : String)
  | remark (text : String)
  deriving DecidableEq, Repr

/-- What a run of the program comes to. -/
structure Outcome where
  exit : Nat
  lines : List ReportLine
  deriving DecidableEq, Repr

namespace Outcome

/-- The result, each line ended. -/
def results (outcome : Outcome) : String :=
  String.join (outcome.lines.map fun
    | .result text => text ++ "\n"
    | .remark _ => "")

/-- The remarks, each line ended. -/
def remarks (outcome : Outcome) : String :=
  String.join (outcome.lines.map fun
    | .result _ => ""
    | .remark text => text ++ "\n")

/-- A run that fails before it has a result. -/
def fatal (message : String) : Outcome :=
  ⟨1, [.remark ("error: " ++ message)]⟩

/-- A run that is asked for something that makes no sense. -/
def misuse (message : String) : Outcome :=
  ⟨2, [.remark message]⟩

end Outcome

namespace Report

/-- The errors among some findings. -/
def errorsOf (diagnostics : List Diagnostic) : Nat :=
  diagnostics.countP (·.severity == .error)

def divider (title : String) : ReportLine :=
  .result ("── " ++ title ++ " ──")

/-- A heading with items below it, or a line that says that there are none. -/
def itemList (heading nothing : String) (items : List String) : List ReportLine :=
  if items.isEmpty then [.result nothing]
  else .result (heading ++ ":") :: items.map fun item => .result ("  - " ++ item)

def candidates (declarations recipes : List String) (warnings : List Diagnostic) :
    List ReportLine :=
  warnings.map (fun diagnostic => .remark diagnostic.text) ++
    itemList "Declaration roots" "No declaration roots found" declarations ++ [.result ""] ++
    itemList "Recipes" "No recipes found" recipes

/-- The report on a pass that writes nothing. -/
def verdict (config : String) (diagnostics : List Diagnostic) : List ReportLine :=
  let errors := errorsOf diagnostics
  let found := diagnostics.map fun diagnostic =>
    if diagnostic.severity = .info then ReportLine.result diagnostic.text
    else .remark diagnostic.text
  let gap := if diagnostics.isEmpty then [] else [ReportLine.result ""]
  let last :=
    if errors = 0 then "✓ " ++ config ++ " is valid"
    else "✗ " ++ config ++ " has " ++ toString errors ++ " error" ++ if errors = 1 then "" else "s"
  found ++ gap ++ [.result last]

/-- The report on files that would be generated. -/
def preview (artifacts : List Artifact) : List ReportLine :=
  artifacts.flatMap (fun artifact => [divider artifact.path, .result artifact.content]) ++
    [divider "Summary", .result (toString artifacts.length ++ " files would be generated")]

/-- The report on files that were generated below a folder. -/
def generation (folder : String) (rendering : Rendering) (changes : ChangeList)
    (records : Option String) : List ReportLine :=
  let unchanged := (changes.having .unchanged).length
  [.result ("Generated: " ++ folder),
    .result ("Declarations: " ++ toString rendering.declarations.declarations.length),
    .result ("Adapters: " ++ toString rendering.adapters.units.length)] ++
    (changes.having .created).map (fun path => .result ("  + " ++ path)) ++
    (changes.having .updated).map (fun path => .result ("  ~ " ++ path)) ++
    (if unchanged = 0 then [] else [.result ("  " ++ toString unchanged ++ " unchanged")]) ++
    records.toList.map fun path => .result ("Snapshots: " ++ path)

/-- The findings below a report on generated files. -/
def findings (diagnostics : List Diagnostic) : List ReportLine :=
  let errors := errorsOf diagnostics
  let skipped :=
    if errors = 0 then []
    else [ReportLine.remark (toString errors ++ " candidate" ++
      (if errors = 1 then " was" else "s were") ++ " skipped")]
  if diagnostics.isEmpty then []
  else .result "" :: diagnostics.map (fun diagnostic => .remark diagnostic.text) ++ skipped

/-- The status of a run with some findings. -/
def status (diagnostics : List Diagnostic) : Nat :=
  if errorsOf diagnostics = 0 then 0 else 1

end Report

end TypeBridge
