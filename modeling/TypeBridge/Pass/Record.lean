import TypeBridge.Layout.Json
import TypeBridge.Pass.Phase

/-!
# Records of phases

The state of a pass right after a phase, as a JSON document.  What is not found out yet is left
out.
-/

namespace TypeBridge

namespace ResolvedType

mutual

def json : ResolvedType → Json
  | primitive which => .object [("ref", .text "primitive"), ("primitive", .text which.word)]
  | named name args =>
    .object [("ref", .text "named"), ("name", .text name), ("args", .array (jsonAll args))]
  | var name => .object [("ref", .text "var"), ("name", .text name)]
  | array element => .object [("ref", .text "array"), ("element", element.json)]
  | set element => .object [("ref", .text "set"), ("element", element.json)]
  | map key value => .object [("ref", .text "map"), ("key", key.json), ("value", value.json)]
  | optional inner => .object [("ref", .text "optional"), ("inner", inner.json)]
  | anything =>
    .object [("ref", .text "wildcard"), ("wildcard", .object [("wildcard", .text "any")])]
  | anyBelow bound =>
    .object [("ref", .text "wildcard"),
      ("wildcard", .object [("wildcard", .text "extends"), ("bound", bound.json)])]
  | anyAbove bound =>
    .object [("ref", .text "wildcard"),
      ("wildcard", .object [("wildcard", .text "super"), ("bound", bound.json)])]
  | unknown => .object [("ref", .text "unknown")]

def jsonAll : List ResolvedType → List Json
  | [] => []
  | type :: rest => type.json :: jsonAll rest

end

end ResolvedType

def Generic.json (generic : Generic) : Json :=
  .object [("name", .text generic.name), ("bound", .ofOption ResolvedType.json generic.bound),
    ("variance", .ofOption (fun variance => .text variance.word) generic.variance)]

def Parameter.json (parameter : Parameter) : Json :=
  .object [("name", .text parameter.name), ("ty", parameter.type.json),
    ("nullable", .flag parameter.nullable)]

def MemberKind.json : MemberKind → Json
  | .field => .object [("kind", .text "field")]
  | .method parameters generics =>
    .object [("kind", .text "method"), ("params", .array (parameters.map (·.json))),
      ("generics", .array (generics.map (·.json)))]

def Member.json (member : Member) : Json :=
  .object [("name", .text member.name), ("kind", member.kind.json), ("ty", member.type.json),
    ("nullable", .flag member.nullable), ("optional", .flag member.optional),
    ("doc", .ofOption .text member.doc)]

def Node.json (node : Node) : Json :=
  .object [("name", .text node.name), ("kind", .text node.kind.word),
    ("doc", .ofOption .text node.doc), ("generics", .array (node.generics.map (·.json))),
    ("members", .array (node.members.map (·.json))),
    ("supertypes", .array (ResolvedType.jsonAll node.supertypes)),
    ("nested", .texts node.nested), ("variants", .texts node.variants),
    ("constants", .texts node.constants), ("index", .number node.index)]

def TypeGraph.json (graph : TypeGraph) : Json :=
  .object [("nodes", .object (graph.nodes.map fun node => (node.name, node.json)))]

def EmissionOrder.json (order : EmissionOrder) : Json :=
  .object [("groups", .array (order.groups.map .texts))]

def OptionType.json : OptionType → Json
  | .string => .object [("type", .text "string")]
  | .number => .object [("type", .text "number")]
  | .boolean => .object [("type", .text "boolean")]
  | .enum values => .object [("type", .text "enum"), ("of", .texts values)]
  | .list element => .object [("type", .text "list"), ("of", element.json)]
  | .host name => .object [("type", .text "host"), ("of", .text name)]

def OptionSchema.json (option : OptionSchema) : Json :=
  .object [("name", .text option.name), ("ty", option.type.json),
    ("display_name", .text option.displayName), ("description", .text option.description),
    ("example", .ofOption .text option.example?), ("required", .flag option.required)]

def VisitorSchema.json (visitor : VisitorSchema) : Json :=
  .object [("target", .text visitor.target), ("subtypes", .texts visitor.subtypes)]

def RecipeSchema.json (recipe : RecipeSchema) : Json :=
  .object [("name", .text recipe.name), ("display_name", .text recipe.displayName),
    ("description", .text recipe.description),
    ("options", .array (recipe.options.map (·.json))),
    ("visitor", .ofOption VisitorSchema.json recipe.visitor)]

/-- The title of a severity. -/
def Severity.title : Severity → String
  | .error => "Error"
  | .warning => "Warning"
  | .info => "Info"

def Diagnostic.json (diagnostic : Diagnostic) : Json :=
  .object [("severity", .text diagnostic.severity.title), ("phase", .text diagnostic.phase),
    ("message", .text diagnostic.message), ("location", .ofOption .text diagnostic.location),
    ("rule", .ofOption .text diagnostic.rule)]

def Candidates.json (candidates : Candidates) : Json :=
  .object [("declarations", .texts candidates.declarations),
    ("recipes", .texts candidates.recipes)]

/-- The record of a phase that left some state. -/
def Session.record (session : Session) (phase : Phase) : Json :=
  let recipes :=
    if session.recipes.isEmpty then []
    else [("recipes", Json.array (session.recipes.map (·.json)))]
  .object (("phase", .text phase.name) ::
    session.candidates?.toList.map (fun candidates => ("candidates", candidates.json)) ++
    session.graph?.toList.map (fun graph => ("graph", graph.json)) ++
    session.order?.toList.map (fun order => ("order", order.json)) ++ recipes ++
    [("diagnostics", .array (session.diagnostics.map (·.json)))])

end TypeBridge
