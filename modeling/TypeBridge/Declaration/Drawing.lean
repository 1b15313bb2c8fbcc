import TypeBridge.Config
import TypeBridge.Declaration.Shape
import TypeBridge.Graph.MemberSet
import TypeBridge.Pass.Diagnostic

/-!
# Drawing up declarations

The shape of the declaration of a node, and the members that had to be left out of it.
-/

namespace TypeBridge

/-- Something that a declaration cannot say. -/
inductive Omission where
  /-- Two inherited members differ. -/
  | conflict (conflict : MemberConflict)
  /-- A member has the name of the discriminant. -/
  | discriminantClash (name : String)
  /-- A field has the name of a method. -/
  | fieldClash (name : String)
  deriving DecidableEq

namespace Omission

def message : Omission → String
  | conflict ⟨key, kept, dropped⟩ =>
    "member '" ++ key ++ "' inherited from " ++ dropped ++ " conflicts with " ++ kept ++
      "; keeping the latter"
  | discriminantClash name =>
    "member '" ++ name ++ "' clashes with the union discriminant and is omitted"
  | fieldClash name =>
    "field '" ++ name ++ "' clashes with a method of the same name and is omitted"

def rule : Omission → String
  | conflict _ => "member-conflict"
  | discriminantClash _ | fieldClash _ => "member-clash"

def diagnostic (omission : Omission) (type : String) : Diagnostic where
  severity := .warning
  phase := "emit"
  message := omission.message
  location := some type
  rule := some omission.rule

end Omission

/-- The type parameters of a method, or of a declaration when variance is to be kept. -/
def typeParameters (keepVariance : Bool) (generics : List Generic) : List TypeParameter :=
  generics.map fun generic => {
    modifier := if keepVariance then generic.variance else none
    name := generic.name
    bound := generic.bound.map (·.spell) }

/-- The entry of a member.  A nullable field may also be absent. -/
def Member.entry (member : Member) : Entry :=
  let type := member.type.spell.orNothing member.nullable
  match member.kind with
  | .field => .property member.name type (member.nullable || member.optional) member.doc
  | .method parameters generics =>
    .method member.name (typeParameters false generics)
      (parameters.map fun parameter =>
        (Script.safeName parameter.name, parameter.type.spell.orNothing parameter.nullable))
      type member.optional member.doc

namespace TypeGraph

/-- Whether a node is a variant of some closed type: a direct supertype is closed. -/
def isVariant (graph : TypeGraph) (node : Node) : Bool :=
  (node.supertypeNames.filterMap graph.get?).any (·.isClosed)

/-- The reference that the union of a closed type makes to one of its variants.  A parameter of the
variant that the supertype reference passes on is spelled as the parameter that receives it; every
other one is unknown. -/
def variantReference (graph : TypeGraph) (closed : Node) (variant : String) : ResolvedType :=
  match graph.get? variant with
  | none => .named variant []
  | some node =>
    let passed := (node.supertypes.findSome? fun
      | .named name args => if name = closed.name then some args else none
      | _ => none).getD []
    .named variant (node.generics.map fun generic =>
      match (passed.findIdx? (· == .var generic.name)).bind (closed.generics[·]?) with
      | some received => .var received.name
      | none => .unknown)

/-- The supertypes that a declaration refers to.  Closed types are never extended. -/
def openSupertypes (graph : TypeGraph) (node : Node) : List ResolvedType :=
  node.supertypes.filter fun supertype =>
    (supertype.name?.bind graph.get?).any (!·.isClosed)

/-- The members that a declaration starts from. -/
def sourceMembers (graph : TypeGraph) (style : SupertypeStyle) (node : Node) : MemberSet :=
  if style = .flattened then graph.allMembers node
  else if graph.isVariant node then graph.variantMembers node
  else ⟨node.members.map fun member => ⟨member, node.name⟩, []⟩

/-- Leave out the members with the name of the discriminant. -/
def withoutDiscriminant (name : String) (members : List Member) : List Member × List Omission :=
  if members.any (·.name == name) then
    (members.filter (·.name != name), [.discriminantClash name])
  else (members, [])

/-- Leave out the fields with the name of a method. -/
def withoutFieldClashes (members : List Member) : List Member × List Omission :=
  let clashes (member : Member) : Bool :=
    !member.isMethod && members.any fun other => other.isMethod && other.name == member.name
  (members.filter (!clashes ·), (members.filter clashes).map fun member => .fieldClash member.name)

/-- The shape of a node with members, and what it leaves out. -/
def drawObject (graph : TypeGraph) (config : EmitConfig) (node : Node) : Shape × List Omission :=
  let source := graph.sourceMembers config.supertypes node
  let isVariant := graph.isVariant node
  let (members, hidden) :=
    if isVariant then withoutDiscriminant config.discriminant source.members
    else (source.members, [])
  let (members, clashing) := withoutFieldClashes members
  let first :=
    if isVariant then [Entry.discriminant config.discriminant (Name.spelled node.name)] else []
  let parents := if config.supertypes = .flattened then [] else graph.openSupertypes node
  (.object (typeParameters (config.variance == .preserve) node.generics)
    (config.supertypes == .intersecting) (parents.map (·.spell)) (first ++ members.map (·.entry)),
   source.conflicts.map .conflict ++ hidden ++ clashing)

/-- The shape of a node, and what it leaves out. -/
def draw (graph : TypeGraph) (config : EmitConfig) (node : Node) : Shape × List Omission :=
  if node.isEnum then (.constants node.constants, [])
  else if node.isClosed then
    (.union (typeParameters (config.variance == .preserve) node.generics)
      (node.variants.map fun variant => (graph.variantReference node variant).spell), [])
  else graph.drawObject config node

end TypeGraph

end TypeBridge
