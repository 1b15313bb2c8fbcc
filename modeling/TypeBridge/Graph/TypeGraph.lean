import TypeBridge.Graph.Node
import TypeBridge.Search.Keyed
import TypeBridge.Search.Walk

/-!
# The type graph

Resolved types by name, in the order of their discovery, with the subtype relation between them.
-/

namespace TypeBridge

/-- Put a node in place of the one with its name, or behind all others. -/
def placeNode (node : Node) : List Node → List Node
  | [] => [node]
  | other :: rest => if other.name = node.name then node :: rest else other :: placeNode node rest

theorem names_placeNode (node : Node) (nodes : List Node) :
    (placeNode node nodes).map (·.name) =
      if node.name ∈ nodes.map (·.name) then nodes.map (·.name)
      else nodes.map (·.name) ++ [node.name] := by
  induction nodes with
  | nil => simp [placeNode]
  | cons other rest ih =>
    unfold placeNode
    by_cases same : other.name = node.name
    · simp [same]
    · simp only [same, if_false, List.map_cons, ih, List.mem_cons, Ne.symm same, false_or]
      split <;> simp

/-- Nodes with distinct names. -/
structure TypeGraph where
  nodes : List Node
  distinct : (nodes.map (·.name)).Nodup

namespace TypeGraph

def empty : TypeGraph :=
  ⟨[], by simp⟩

/-- The names of all nodes in discovery order. -/
def names (graph : TypeGraph) : List String :=
  graph.nodes.map (·.name)

def size (graph : TypeGraph) : Nat :=
  graph.nodes.length

def get? (graph : TypeGraph) (name : String) : Option Node :=
  graph.nodes.find? (·.name == name)

theorem get?_eq_some_iff {graph : TypeGraph} {name : String} {node : Node} :
    graph.get? name = some node ↔ node ∈ graph.nodes ∧ node.name = name :=
  Search.find?_key_eq_some_iff graph.distinct

theorem get?_eq_none_iff {graph : TypeGraph} {name : String} :
    graph.get? name = none ↔ name ∉ graph.names :=
  Search.find?_key_eq_none_iff

def contains (graph : TypeGraph) (name : String) : Bool :=
  (graph.get? name).isSome

theorem contains_iff {graph : TypeGraph} {name : String} :
    graph.contains name = true ↔ name ∈ graph.names := by
  rw [contains, ← Option.ne_none_iff_isSome, ne_eq, get?_eq_none_iff, Decidable.not_not]

/-- The node at a position of the discovery order. -/
def at? (graph : TypeGraph) (index : Nat) : Option Node :=
  graph.nodes[index]?

/-- Insert a node, numbered by the size of the graph before.  A node with the same name is
replaced where it stands. -/
def insert (graph : TypeGraph) (node : Node) : TypeGraph where
  nodes := placeNode { node with index := graph.size } graph.nodes
  distinct := by
    rw [names_placeNode]
    split
    · exact graph.distinct
    · next fresh =>
      rw [List.nodup_append]
      refine ⟨graph.distinct, by simp, ?_⟩
      intro name known other last same
      simp only [List.mem_singleton] at last
      exact fresh (last ▸ same ▸ known)

/-- A new name is appended to the discovery order; a known one keeps its place. -/
theorem names_insert (graph : TypeGraph) (node : Node) :
    (graph.insert node).names =
      if node.name ∈ graph.names then graph.names else graph.names ++ [node.name] :=
  names_placeNode _ _

def supertypeNames (graph : TypeGraph) (name : String) : List String :=
  ((graph.get? name).map (·.supertypeNames)).getD []

/-- Whether supertypes lead from one name to another. -/
def isAssignable (graph : TypeGraph) (sub super : String) : Bool :=
  Search.reaches graph.supertypeNames graph.names sub super

/-- All other types from which supertypes lead to a name, in discovery order. -/
def subtypesOf (graph : TypeGraph) (name : String) : List String :=
  graph.names.filter fun candidate => candidate != name && graph.isAssignable candidate name

end TypeGraph

end TypeBridge
