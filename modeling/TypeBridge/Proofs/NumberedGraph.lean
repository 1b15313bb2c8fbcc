import Mathlib.Data.List.Basic
import Mathlib.Logic.Relation
import TypeBridge.Graph.EmissionOrder
import TypeBridge.Proofs.ComponentLayers

/-!
# Numbered graphs

In a graph that is built by inserting nodes with distinct names, every node carries its position.
So the edges between positions are the dependencies between names.
-/

namespace TypeBridge

namespace TypeGraph

open Relation

/-- Insert some nodes one after another. -/
def ofNodes (nodes : List Node) : TypeGraph :=
  nodes.foldl .insert .empty

/-- Every node carries its position. -/
def IsNumbered (graph : TypeGraph) : Prop :=
  ∀ (i : Nat) (node : Node), graph.at? i = some node → node.index = i

theorem placeNode_of_fresh {node : Node} {nodes : List Node}
    (fresh : node.name ∉ nodes.map (·.name)) : placeNode node nodes = nodes ++ [node] := by
  induction nodes with
  | nil => rfl
  | cons other rest ih =>
    rw [List.map_cons, List.mem_cons, not_or] at fresh
    rw [placeNode, if_neg (Ne.symm fresh.1), ih fresh.2]
    rfl

theorem nodes_insert_of_fresh {graph : TypeGraph} {node : Node} (fresh : node.name ∉ graph.names) :
    (graph.insert node).nodes = graph.nodes ++ [{ node with index := graph.size }] :=
  placeNode_of_fresh fresh

theorem isNumbered_empty : empty.IsNumbered := by
  intro i node found
  simp [at?, empty] at found

theorem IsNumbered.insert {graph : TypeGraph} {node : Node} (numbered : graph.IsNumbered)
    (fresh : node.name ∉ graph.names) : (graph.insert node).IsNumbered := by
  intro i other found
  rw [at?, nodes_insert_of_fresh fresh] at found
  rcases Nat.lt_trichotomy i graph.nodes.length with before | rfl | behind
  · rw [List.getElem?_append_left before] at found
    exact numbered i other found
  · rw [List.getElem?_concat_length, Option.some.injEq] at found
    rw [← found]
    rfl
  · rw [List.getElem?_eq_none (by simp; omega)] at found
    simp at found

theorem names_foldl_insert {graph : TypeGraph} {nodes : List Node}
    (numbered : graph.IsNumbered) (distinct : (graph.names ++ nodes.map (·.name)).Nodup) :
    (nodes.foldl .insert graph).IsNumbered ∧
      (nodes.foldl .insert graph).names = graph.names ++ nodes.map (·.name) := by
  induction nodes generalizing graph with
  | nil => exact ⟨numbered, by simp⟩
  | cons node nodes ih =>
    have fresh : node.name ∉ graph.names := by
      intro known
      exact (List.nodup_append.1 distinct).2.2 node.name known node.name (by simp) rfl
    have names : (graph.insert node).names = graph.names ++ [node.name] := by
      rw [names_insert, if_neg fresh]
    have split : (graph.insert node).names ++ nodes.map (·.name) =
        graph.names ++ (node :: nodes).map (·.name) := by
      simp [names]
    obtain ⟨kept, all⟩ := ih (numbered.insert fresh) (by rwa [split])
    exact ⟨kept, all.trans split⟩

/-- Inserting nodes with distinct names numbers them by position. -/
theorem isNumbered_ofNodes {nodes : List Node} (distinct : (nodes.map (·.name)).Nodup) :
    (ofNodes nodes).IsNumbered :=
  (names_foldl_insert isNumbered_empty (by simpa [names, empty] using distinct)).1

theorem names_ofNodes {nodes : List Node} (distinct : (nodes.map (·.name)).Nodup) :
    (ofNodes nodes).names = nodes.map (·.name) := by
  exact (names_foldl_insert isNumbered_empty (by simpa [names, empty] using distinct)).2

/-- A node leads to a name, and both are of the graph. -/
def LinkedBy (graph : TypeGraph) (targets : Node → List String) (a b : String) : Prop :=
  ∃ node, graph.get? a = some node ∧ b ∈ targets node ∧ b ∈ graph.names

/-- A type depends on another type of the graph. -/
def DependsOn (graph : TypeGraph) (a b : String) : Prop :=
  ∃ node, graph.get? a = some node ∧ b ∈ node.dependencies ∧ b ∈ graph.names

/-- Dependencies lead from one type to another in any number of steps. -/
abbrev Reaches (graph : TypeGraph) : String → String → Prop :=
  ReflTransGen graph.DependsOn

/-- A type has another type of the graph, or itself, as a direct supertype. -/
def DerivesFrom (graph : TypeGraph) (a b : String) : Prop :=
  ∃ node, graph.get? a = some node ∧ b ∈ node.supertypeNames ∧ b ∈ graph.names

/-- A name and its position. -/
def IsAt (graph : TypeGraph) (i : Nat) (name : String) : Prop :=
  ∃ node, graph.at? i = some node ∧ node.name = name

variable {graph : TypeGraph}

theorem isAt_iff {i : Nat} {name : String} : graph.IsAt i name ↔ graph.names[i]? = some name := by
  rw [IsAt, names, List.getElem?_map, Option.map_eq_some_iff]
  rfl

theorem IsAt.lt_size {i : Nat} {name : String} (known : graph.IsAt i name) : i < graph.size := by
  obtain ⟨node, found, -⟩ := known
  exact (List.getElem?_eq_some_iff.1 found).1

theorem exists_isAt {i : Nat} (inside : i < graph.size) : ∃ name, graph.IsAt i name := by
  have found : graph.at? i = some graph.nodes[i] := List.getElem?_eq_getElem inside
  exact ⟨_, _, found, rfl⟩

theorem exists_isAt_of_mem {name : String} (known : name ∈ graph.names) :
    ∃ i, graph.IsAt i name := by
  obtain ⟨i, found⟩ := List.getElem?_of_mem known
  exact ⟨i, isAt_iff.2 found⟩

theorem IsAt.mem_names {i : Nat} {name : String} (known : graph.IsAt i name) :
    name ∈ graph.names :=
  List.mem_of_getElem? (isAt_iff.1 known)

theorem IsAt.name_unique {i : Nat} {a b : String} (first : graph.IsAt i a)
    (second : graph.IsAt i b) : a = b := by
  rw [isAt_iff] at first second
  exact Option.some.inj (first.symm.trans second)

theorem IsAt.position_unique {i j : Nat} {name : String} (first : graph.IsAt i name)
    (second : graph.IsAt j name) : i = j := by
  have inside : i < graph.names.length := by
    simpa [names, size] using first.lt_size
  refine (List.getElem?_inj inside graph.distinct).1 ?_
  exact (isAt_iff.1 first).trans (isAt_iff.1 second).symm

theorem get?_at {i : Nat} {node : Node} (found : graph.at? i = some node) :
    graph.get? node.name = some node :=
  get?_eq_some_iff.2 ⟨List.mem_of_getElem? found, rfl⟩

/-- The edges of a position lead to the positions of the names that its node leads to. -/
theorem mem_edges_iff (numbered : graph.IsNumbered) {targets : Node → List String} {i j : Nat} :
    j ∈ graph.edges targets i ↔
      ∃ node, graph.at? i = some node ∧ ∃ name ∈ targets node, graph.IsAt j name := by
  rw [edges]
  cases found : graph.at? i with
  | none => simp
  | some node =>
    simp only [Option.map_some, Option.getD_some, Option.some.injEq, exists_eq_left', numbersOf,
      List.mem_filterMap, Option.map_eq_some_iff]
    constructor
    · rintro ⟨name, wanted, target, known, rfl⟩
      obtain ⟨inside, rfl⟩ := get?_eq_some_iff.1 known
      obtain ⟨k, at'⟩ := List.getElem?_of_mem inside
      refine ⟨target.name, wanted, target, ?_, rfl⟩
      rwa [numbered k target at']
    · rintro ⟨name, wanted, target, at', rfl⟩
      exact ⟨target.name, wanted, target, get?_at at', numbered j target at'⟩

theorem LinkedBy.mem_names {targets : Node → List String} {a b : String}
    (link : graph.LinkedBy targets a b) : a ∈ graph.names ∧ b ∈ graph.names := by
  obtain ⟨node, found, -, inGraph⟩ := link
  obtain ⟨known, rfl⟩ := get?_eq_some_iff.1 found
  exact ⟨List.mem_map_of_mem known, inGraph⟩

instance (targets : Node → List String) (a b : String) : Decidable (graph.LinkedBy targets a b) :=
  match found : graph.get? a with
  | none => .isFalse (by simp [LinkedBy, found])
  | some node => decidable_of_iff (b ∈ targets node ∧ b ∈ graph.names) (by simp [LinkedBy, found])

instance (a b : String) : Decidable (graph.DependsOn a b) :=
  inferInstanceAs (Decidable (graph.LinkedBy (·.dependencies) a b))

instance (a b : String) : Decidable (graph.DerivesFrom a b) :=
  inferInstanceAs (Decidable (graph.LinkedBy (·.supertypeNames) a b))

theorem mem_edges_iff_linkedBy (numbered : graph.IsNumbered) {targets : Node → List String}
    {i j : Nat} {a : String} (known : graph.IsAt i a) :
    j ∈ graph.edges targets i ↔ ∃ b, graph.IsAt j b ∧ graph.LinkedBy targets a b := by
  obtain ⟨node, found, rfl⟩ := known
  rw [mem_edges_iff numbered]
  constructor
  · rintro ⟨other, same, b, wanted, target⟩
    obtain rfl : node = other := Option.some.inj (found.symm.trans same)
    exact ⟨b, target, node, get?_at found, wanted, target.mem_names⟩
  · rintro ⟨b, target, other, same, wanted, -⟩
    obtain rfl : node = other := Option.some.inj ((get?_at found).symm.trans same)
    exact ⟨node, found, b, wanted, target⟩

theorem mem_dependencyEdges_iff (numbered : graph.IsNumbered) {i j : Nat} {a : String}
    (known : graph.IsAt i a) :
    j ∈ graph.dependencyEdges i ↔ ∃ b, graph.IsAt j b ∧ graph.DependsOn a b :=
  mem_edges_iff_linkedBy numbered known

theorem mem_supertypeEdges_iff (numbered : graph.IsNumbered) {i j : Nat} {a : String}
    (known : graph.IsAt i a) :
    j ∈ graph.supertypeEdges i ↔ ∃ b, graph.IsAt j b ∧ graph.DerivesFrom a b :=
  mem_edges_iff_linkedBy numbered known

/-- Walks between positions are chains of links between names. -/
theorem leads_iff_linkedBy (numbered : graph.IsNumbered) {targets : Node → List String}
    {i j : Nat} {a b : String} (source : graph.IsAt i a) (target : graph.IsAt j b) :
    Search.Leads (graph.edges targets) (List.range graph.size) i j ↔
      ReflTransGen (graph.LinkedBy targets) a b := by
  constructor
  · intro leads
    have named : ∃ name, graph.IsAt j name ∧ ReflTransGen (graph.LinkedBy targets) a name := by
      clear target
      induction leads with
      | refl => exact ⟨a, source, .refl⟩
      | tail _ edge ih =>
        obtain ⟨name, known, reaches⟩ := ih
        obtain ⟨next, known', link⟩ := (mem_edges_iff_linkedBy numbered known).1 edge.1
        exact ⟨next, known', reaches.tail link⟩
    obtain ⟨name, known, reaches⟩ := named
    rwa [target.name_unique known]
  · intro reaches
    have placed : ∃ k, graph.IsAt k b ∧
        Search.Leads (graph.edges targets) (List.range graph.size) i k := by
      clear target
      induction reaches with
      | refl => exact ⟨i, source, .refl⟩
      | tail _ link ih =>
        obtain ⟨k, known, leads⟩ := ih
        have inGraph := link
        obtain ⟨-, -, -, member⟩ := inGraph
        obtain ⟨next, known'⟩ := exists_isAt_of_mem member
        refine ⟨next, known', leads.tail ⟨?_, List.mem_range.2 known'.lt_size⟩⟩
        exact (mem_edges_iff_linkedBy numbered known).2 ⟨_, known', link⟩
    obtain ⟨k, known, leads⟩ := placed
    rwa [target.position_unique known]

theorem leads_iff_reaches (numbered : graph.IsNumbered) {i j : Nat} {a b : String}
    (source : graph.IsAt i a) (target : graph.IsAt j b) :
    Search.Leads graph.dependencyEdges (List.range graph.size) i j ↔ graph.Reaches a b :=
  leads_iff_linkedBy numbered source target

theorem mem_namesAt_iff {positions : List Nat} {name : String} :
    name ∈ graph.namesAt positions ↔ ∃ i ∈ positions, graph.IsAt i name := by
  simp [namesAt, IsAt, List.mem_filterMap, Option.map_eq_some_iff]

/-- The name at a position, or no name behind the last one. -/
def nameAt (graph : TypeGraph) (i : Nat) : String :=
  graph.names[i]?.getD ""

theorem IsAt.nameAt_eq {i : Nat} {name : String} (known : graph.IsAt i name) :
    graph.nameAt i = name := by
  rw [nameAt, isAt_iff.1 known]
  rfl

theorem namesAt_eq_map {positions : List Nat} (inside : ∀ i ∈ positions, i < graph.size) :
    graph.namesAt positions = positions.map graph.nameAt := by
  have each : ∀ i ∈ positions, (graph.at? i).map (·.name) = (some ∘ graph.nameAt) i := by
    intro i member
    obtain ⟨name, known⟩ := exists_isAt (inside i member)
    rw [Function.comp_apply, known.nameAt_eq]
    obtain ⟨node, found, rfl⟩ := known
    rw [found]
    rfl
  rw [namesAt, List.filterMap_congr each, List.filterMap_eq_map]

theorem namesAt_range : graph.namesAt (List.range graph.size) = graph.names := by
  rw [namesAt_eq_map fun i member => List.mem_range.1 member]
  apply List.ext_getElem
  · simp [names, size]
  · intro i left right
    simp [nameAt, List.getElem?_eq_getElem right]

end TypeGraph

end TypeBridge
