import TypeBridge.Declaration.Drawing
import TypeBridge.Graph.EmissionOrder

/-!
# The declaration unit

All declarations of a graph in emission order.  A reference inside nested namespaces is refused when
its first segment would be found in one of them.
-/

namespace TypeBridge

/-- A written declaration. -/
structure Declaration where
  /-- The host name. -/
  qualified : String
  /-- The name that scripts use. -/
  name : String
  group : Nat
  /-- The names of the declarations it refers to, each once. -/
  references : List String
  text : String
  deriving DecidableEq, Repr

/-- The declarations of a pass, and the warnings about them. -/
structure DeclarationUnit where
  declarations : List Declaration
  diagnostics : List Diagnostic
  deriving DecidableEq, Repr

namespace DeclarationUnit

def names (unit : DeclarationUnit) : List String :=
  unit.declarations.map (·.name)

def position? (unit : DeclarationUnit) (name : String) : Option Nat :=
  unit.declarations.findIdx? (·.name == name)

/-- The texts of all declarations, a blank line apart. -/
def body (unit : DeclarationUnit) : String :=
  "\n".intercalate (unit.declarations.map (·.text))

end DeclarationUnit

namespace TypeGraph

/-- The type that is declared under a spelled name. -/
def declaredAs? (graph : TypeGraph) (name : String) : Option String :=
  (graph.names.reverse.find? fun qualified => Name.spelled qualified == name)

/-- The first enclosing namespace that captures a reference, from the outside inwards. -/
def capture? (graph : TypeGraph) (enclosing : List String) (reference : String) :
    Option PassError :=
  let head := ((Name.path reference).head?).getD ""
  (List.range enclosing.length).findSome? fun depth =>
    let outside := ".".intercalate (enclosing.take (depth + 1))
    (graph.declaredAs? (outside ++ "." ++ head)).map fun shadow =>
      .shadowedReference reference outside shadow

/-- The declaration of a node, with the warnings about it. -/
def declare (graph : TypeGraph) (config : EmitConfig) (group : Nat) (node : Node) :
    Except PassError (Declaration × List Diagnostic) :=
  let path := Name.path node.name
  let enclosing := path.dropLast
  let (shape, omissions) := graph.draw config node
  match shape.names.findSome? (graph.capture? enclosing) with
  | some error => .error error
  | none =>
    let statement := shape.statement (path.getLast?.getD "") node.doc
    .ok ({
      qualified := node.name
      name := Name.spelled node.name
      group
      references := (shape.names.map Name.spelled).eraseDups
      text := Page.render .script (Script.inNamespace enclosing statement.fragments) },
      omissions.map (·.diagnostic node.name))

/-- Declare the types of an order, as far as the graph has them. -/
def declareAll (graph : TypeGraph) (config : EmitConfig) (order : EmissionOrder) :
    Except PassError DeclarationUnit := do
  let nodes := order.numbered.filterMap fun (group, name) =>
    (graph.get? name).map fun node => (group, node)
  let declared ← nodes.mapM fun (group, node) => graph.declare config group node
  return ⟨declared.map (·.1), declared.flatMap (·.2)⟩

end TypeGraph

end TypeBridge
