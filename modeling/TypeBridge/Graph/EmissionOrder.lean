import TypeBridge.Graph.TypeGraph
import TypeBridge.Pass.PassError
import TypeBridge.Search.Components
import TypeBridge.Search.Schedule

/-!
# Emission order

The order in which the types of a graph are declared: groups of mutually dependent types, each
group behind everything that it depends on, the earliest discovered group first.  Inside a group
supertypes come before their subtypes.
-/

namespace TypeBridge

/-- Groups of type names in the order of their declarations. -/
structure EmissionOrder where
  groups : List (List String)
  deriving DecidableEq, Repr

namespace EmissionOrder

/-- All names in the order of their declarations. -/
def names (order : EmissionOrder) : List String :=
  order.groups.flatten

/-- Each name with the number of its group. -/
def numbered (order : EmissionOrder) : List (Nat × String) :=
  order.groups.zipIdx.flatMap fun (group, index) => group.map fun name => (index, name)

end EmissionOrder

namespace TypeGraph

/-- The numbers that the nodes of some names carry, as far as the graph has the names. -/
def numbersOf (graph : TypeGraph) (names : List String) : List Nat :=
  names.filterMap fun name => (graph.get? name).map (·.index)

/-- The edges from one position of the graph, given the names that a node leads to.  They lead to
positions when the nodes are numbered by theirs. -/
def edges (graph : TypeGraph) (targets : Node → List String) (index : Nat) : List Nat :=
  ((graph.at? index).map fun node => graph.numbersOf (targets node)).getD []

/-- The positions that the declaration of a node depends on. -/
def dependencyEdges (graph : TypeGraph) : Nat → List Nat :=
  graph.edges (·.dependencies)

/-- The positions of the direct supertypes of a node. -/
def supertypeEdges (graph : TypeGraph) : Nat → List Nat :=
  graph.edges (·.supertypeNames)

def namesAt (graph : TypeGraph) (indices : List Nat) : List String :=
  indices.filterMap fun index => (graph.at? index).map (·.name)

/-- Whether a component has a cycle: two members or an edge from its only member to itself. -/
def isCyclic (next : Nat → List Nat) : List Nat → Bool
  | [] => false
  | [only] => (next only).contains only
  | _ => true

/-- A component of the supertype relation with a cycle, as names that return to the first. -/
def inheritanceCycle? (graph : TypeGraph) : Option (List String) :=
  let components := Search.components graph.supertypeEdges (List.range graph.size)
  (components.find? (isCyclic graph.supertypeEdges)).map fun component =>
    graph.namesAt component ++ (graph.namesAt component).take 1

/-- The first two nodes that share a spelled name. -/
def collision? : List Node → List Node → Option PassError
  | _, [] => none
  | earlier, node :: rest =>
    match earlier.find? fun first => Name.spelled first.name == Name.spelled node.name with
    | some first => some (.nameCollision (Name.spelled node.name) first.name node.name)
    | none => collision? (earlier ++ [node]) rest

/-- Members of a component in the order of their declarations. -/
structure Placement where
  placed : List Nat
  waiting : List Nat
  deriving DecidableEq, Repr

namespace Placement

/-- Whether all supertypes of a member that the component holds are placed. -/
def isReady (supers : Nat → List Nat) (component placed : List Nat) (member : Nat) : Bool :=
  (supers member).all fun super => !component.contains super || placed.contains super

/-- Place the first member that is ready, and the first of all when none is. -/
def step (supers : Nat → List Nat) (component : List Nat) (placement : Placement) : Placement :=
  match placement.waiting with
  | [] => placement
  | first :: rest =>
    let ready? := (first :: rest).find? (isReady supers component placement.placed)
    let member := ready?.getD first
    ⟨placement.placed ++ [member], (first :: rest).erase member⟩

theorem length_waiting_step (supers : Nat → List Nat) (component : List Nat)
    (placement : Placement) :
    (placement.step supers component).waiting.length = placement.waiting.length - 1 := by
  unfold step
  split
  · next none => simp [none]
  · next first rest more =>
    rw [more]
    apply List.length_erase_of_mem
    cases found : (first :: rest).find? (isReady supers component placement.placed) with
    | none => exact List.mem_cons_self
    | some member => exact List.mem_of_find?_eq_some found

/-- Place members until none waits. -/
def finish (supers : Nat → List Nat) (component : List Nat) (placement : Placement) : Placement :=
  match _more : placement.waiting with
  | [] => placement
  | _ :: _ => finish supers component (placement.step supers component)
termination_by placement.waiting.length
decreasing_by
  rw [length_waiting_step, _more]
  simp

end Placement

/-- The members of a component, each behind its supertypes. -/
def supertypesFirst (supers : Nat → List Nat) (component : List Nat) : List Nat :=
  (Placement.finish supers component ⟨[], component⟩).placed

/-- The groups of mutually dependent types, as positions. -/
def dependencyComponents (graph : TypeGraph) : List (List Nat) :=
  Search.components graph.dependencyEdges (List.range graph.size)

/-- Whether a type of one component depends on a type of another. -/
def waitsFor (graph : TypeGraph) (component other : List Nat) : Bool :=
  component != other && component.any fun v => (graph.dependencyEdges v).any other.contains

/-- The earliest discovery in a component, whose members are in discovery order. -/
def earliest (component : List Nat) : Nat :=
  component.head?.getD 0

/-- The groups of mutually dependent types in the order of their declarations. -/
def scheduledComponents (graph : TypeGraph) : List (List Nat) :=
  Search.schedule graph.waitsFor earliest graph.dependencyComponents

/-- The order in which the types of a graph are declared. -/
def emissionOrder (graph : TypeGraph) : Except PassError EmissionOrder :=
  match graph.inheritanceCycle? with
  | some cycle => .error (.cyclicInheritance cycle)
  | none =>
    match collision? [] graph.nodes with
    | some error => .error error
    | none =>
      .ok ⟨graph.scheduledComponents.map fun component =>
        graph.namesAt (supertypesFirst graph.supertypeEdges component)⟩

end TypeGraph

end TypeBridge
