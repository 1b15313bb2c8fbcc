import TypeBridge.Declaration.Unit
import TypeBridge.Proofs.NumberedGraph
import TypeBridge.Proofs.Outcomes

/-!
# Which types a unit declares

A unit has one declaration for every type of an order that the graph has, in that order.
-/

namespace TypeBridge

open Outcome

namespace TypeGraph

variable {graph : TypeGraph} {config : EmitConfig}

/-- A declaration is the one of a node in a group. -/
structure IsDeclared (graph : TypeGraph) (config : EmitConfig) (place : Nat × Node)
    (declaration : Declaration) : Prop where
  qualified : declaration.qualified = place.2.name
  name : declaration.name = Name.spelled place.2.name
  group : declaration.group = place.1
  references : declaration.references =
    ((graph.draw config place.2).1.names.map Name.spelled).eraseDups

theorem isDeclared_of_declare {place : Nat × Node} {declared : Declaration × List Diagnostic}
    (succeeds : graph.declare config place.1 place.2 = .ok declared) :
    graph.IsDeclared config place declared.1 := by
  unfold declare at succeeds
  dsimp only at succeeds
  split at succeeds
  · cases succeeds
  · cases succeeds
    exact ⟨rfl, rfl, rfl, rfl⟩

/-- The nodes of an order with the numbers of their groups. -/
def places (graph : TypeGraph) (order : EmissionOrder) : List (Nat × Node) :=
  order.numbered.filterMap fun (group, name) => (graph.get? name).map fun node => (group, node)

theorem mem_places_iff {order : EmissionOrder} {group : Nat} {node : Node} :
    (group, node) ∈ graph.places order ↔
      (group, node.name) ∈ order.numbered ∧ node ∈ graph.nodes := by
  simp only [places, List.mem_filterMap, Option.map_eq_some_iff, Prod.mk.injEq, Prod.exists]
  constructor
  · rintro ⟨group, name, member, node, found, rfl, rfl⟩
    obtain ⟨known, rfl⟩ := get?_eq_some_iff.1 found
    exact ⟨member, known⟩
  · rintro ⟨member, known⟩
    exact ⟨group, node.name, member, node, get?_eq_some_iff.2 ⟨known, rfl⟩, rfl, rfl⟩

/-- A unit declares the nodes of its order one by one. -/
theorem forall₂_isDeclared {order : EmissionOrder} {unit : DeclarationUnit}
    (succeeds : graph.declareAll config order = .ok unit) :
    List.Forall₂ (graph.IsDeclared config) (graph.places order) unit.declarations := by
  obtain ⟨declared, mapped, same⟩ := bind_eq_ok_iff.1 succeeds
  cases same
  rw [List.forall₂_map_right_iff]
  exact (forall₂_of_mapM mapped).imp fun place declared => isDeclared_of_declare

end TypeGraph

end TypeBridge
