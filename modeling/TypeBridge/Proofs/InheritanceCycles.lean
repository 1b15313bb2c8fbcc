import TypeBridge.Proofs.EmissionTopology

/-!
# Cycles of the supertype relation

A graph is refused for cyclic inheritance exactly when direct supertypes lead from some type back to
it; nothing else that a type mentions counts.  The reported list is a class of types that inherit
from each other, in discovery order, with the first one repeated at the end.  For one or two types
this is a chain of supertypes, for more it need not be.
-/

namespace TypeBridge

open Relation Search

namespace TypeGraph

variable {graph other : TypeGraph} {cycle : List String} {component : List Nat}

/-- Members of a component with a cycle lead to each other, and to themselves, in one or more
steps. -/
theorem mem_cyclic_component_iff {next : Nat → List Nat} {vertices : List Nat}
    (distinct : vertices.Nodup) (known : component ∈ components next vertices)
    (cyclic : isCyclic next component = true) {a : Nat} (member : a ∈ component) (b : Nat) :
    b ∈ component ↔
      TransGen (Edge next vertices) a b ∧ TransGen (Edge next vertices) b a := by
  obtain ⟨v, inside, returns⟩ := (isCyclic_iff distinct known).1 cyclic
  have connected := (settled_components next vertices).1.connected component known
  have around : ∀ x ∈ component, ∀ y ∈ component, TransGen (Edge next vertices) x y := by
    intro x left y right
    exact (returns.trans_left (connected v inside y right)).trans_right (connected x left v inside)
  constructor
  · intro other
    exact ⟨around a member b other, around b other a member⟩
  · rintro ⟨forth, back⟩
    obtain ⟨_, -, last⟩ := TransGen.tail'_iff.1 forth
    exact (mem_component_iff known member b).2
      ⟨last.2, forth.to_reflTransGen, back.to_reflTransGen⟩

theorem exists_of_inheritanceCycle? (found : graph.inheritanceCycle? = some cycle) :
    ∃ component ∈ components graph.supertypeEdges (List.range graph.size),
      isCyclic graph.supertypeEdges component = true ∧
        cycle = graph.namesAt component ++ (graph.namesAt component).take 1 := by
  obtain ⟨component, first, rfl⟩ := Option.map_eq_some_iff.1 found
  exact ⟨component, List.mem_of_find?_eq_some first, List.find?_some first, rfl⟩

theorem collision?_ne_cyclicInheritance (earlier nodes : List Node) :
    collision? earlier nodes ≠ some (.cyclicInheritance cycle) := by
  induction nodes generalizing earlier with
  | nil => simp [collision?]
  | cons node rest ih =>
    unfold collision?
    split
    · simp
    · exact ih _

theorem emissionOrder_eq_cyclicInheritance_iff :
    graph.emissionOrder = .error (.cyclicInheritance cycle) ↔
      graph.inheritanceCycle? = some cycle := by
  unfold emissionOrder
  cases graph.inheritanceCycle? with
  | some other => simp
  | none =>
    cases collided : collision? [] graph.nodes with
    | none => simp
    | some error =>
      have differs : error ≠ .cyclicInheritance cycle := by
        rintro rfl
        exact collision?_ne_cyclicInheritance _ _ collided
      simp [differs]

section Numbered

variable (numbered : graph.IsNumbered)
include numbered

theorem transGen_edge_iff {i j : Nat} {a b : String} (source : graph.IsAt i a)
    (target : graph.IsAt j b) :
    TransGen (Edge graph.supertypeEdges (List.range graph.size)) i j ↔
      TransGen graph.DerivesFrom a b := by
  rw [TransGen.head'_iff, TransGen.head'_iff]
  constructor
  · rintro ⟨k, edge, leads⟩
    obtain ⟨middle, known, step⟩ := (mem_supertypeEdges_iff numbered source).1 edge.1
    exact ⟨middle, step, (leads_iff_linkedBy numbered known target).1 leads⟩
  · rintro ⟨middle, step, chain⟩
    obtain ⟨node, found, inherits, member⟩ := step
    obtain ⟨k, known⟩ := exists_isAt_of_mem member
    refine ⟨k, ⟨?_, List.mem_range.2 known.lt_size⟩, ?_⟩
    · exact (mem_supertypeEdges_iff numbered source).2
        ⟨middle, known, node, found, inherits, member⟩
    · exact (leads_iff_linkedBy numbered known target).2 chain

/-- Some component has a cycle exactly when some type inherits from itself. -/
theorem isSome_inheritanceCycle?_iff :
    graph.inheritanceCycle?.isSome = true ↔ ∃ name, TransGen graph.DerivesFrom name name := by
  rw [inheritanceCycle?, Option.isSome_map, List.find?_isSome]
  constructor
  · rintro ⟨component, known, cyclic⟩
    obtain ⟨i, member, returns⟩ := (isCyclic_iff List.nodup_range known).1 cyclic
    obtain ⟨name, isAt⟩ :=
      exists_isAt (List.mem_range.1 ((sublist_of_component known).mem member))
    exact ⟨name, (transGen_edge_iff numbered isAt isAt).1 returns⟩
  · rintro ⟨name, returns⟩
    obtain ⟨_, -, ⟨_, _, _, inGraph⟩⟩ := TransGen.tail'_iff.1 returns
    obtain ⟨i, isAt⟩ := exists_isAt_of_mem inGraph
    obtain ⟨component, known, member⟩ :=
      exists_component graph.supertypeEdges (List.mem_range.2 isAt.lt_size)
    refine ⟨component, known, ?_⟩
    apply (isCyclic_iff List.nodup_range known).2
    exact ⟨i, member, (transGen_edge_iff numbered isAt isAt).2 returns⟩

/-- The reported list names a class of types that inherit from each other. -/
theorem exists_class_of_inheritanceCycle? (found : graph.inheritanceCycle? = some cycle) :
    ∃ first rest, cycle = first :: rest ++ [first] ∧ (first :: rest).Sublist graph.names ∧
      ∀ name, name ∈ first :: rest ↔
        TransGen graph.DerivesFrom first name ∧ TransGen graph.DerivesFrom name first := by
  obtain ⟨component, known, cyclic, rfl⟩ := exists_of_inheritanceCycle? found
  have inside := sublist_of_component known
  have listed : (graph.namesAt component).Sublist graph.names := by
    rw [← namesAt_range]
    exact inside.filterMap _
  have sameNames : ∀ a ∈ graph.namesAt component, ∀ b,
      b ∈ graph.namesAt component ↔
        TransGen graph.DerivesFrom a b ∧ TransGen graph.DerivesFrom b a := by
    intro a member b
    obtain ⟨i, left, source⟩ := mem_namesAt_iff.1 member
    have sameClass := mem_cyclic_component_iff List.nodup_range known cyclic left
    rw [mem_namesAt_iff]
    constructor
    · rintro ⟨j, right, target⟩
      rw [← transGen_edge_iff numbered source target, ← transGen_edge_iff numbered target source]
      exact (sameClass j).1 right
    · rintro ⟨forth, back⟩
      obtain ⟨_, -, _, -, -, inGraph⟩ := TransGen.tail'_iff.1 forth
      obtain ⟨j, target⟩ := exists_isAt_of_mem inGraph
      rw [← transGen_edge_iff numbered source target] at forth
      rw [← transGen_edge_iff numbered target source] at back
      exact ⟨j, (sameClass j).2 ⟨forth, back⟩, target⟩
  obtain ⟨v, member, -⟩ := (isCyclic_iff List.nodup_range known).1 cyclic
  obtain ⟨name, isAt⟩ := exists_isAt (List.mem_range.1 (inside.mem member))
  have some : name ∈ graph.namesAt component := mem_namesAt_iff.2 ⟨v, member, isAt⟩
  cases names : graph.namesAt component with
  | nil => simp [names] at some
  | cons first rest =>
    rw [names] at listed sameNames
    exact ⟨first, rest, rfl, listed, sameNames first List.mem_cons_self⟩

end Numbered

/-- In a class of two elements each one is followed by the other. -/
theorem step_of_class {α : Type} {r : α → α → Prop} {a b : α}
    (only : ∀ c, TransGen r a c → TransGen r c a → c = a ∨ c = b)
    (forth : TransGen r a b) (back : TransGen r b a) : r a b := by
  have start : ∀ c, TransGen r c b → c = a → r a b := by
    intro c path
    induction path using TransGen.head_induction_on with
    | single step =>
      rintro rfl
      exact step
    | head step rest ih =>
      rintro rfl
      rcases only _ (.single step) (rest.trans back) with again | last
      · exact ih again
      · exact last ▸ step
  exact start a forth rfl

section Outlines

theorem IsNumbered.index_eq_some_iff (numbered : graph.IsNumbered) {name : String} {i : Nat} :
    (graph.get? name).map (·.index) = some i ↔ graph.IsAt i name := by
  rw [Option.map_eq_some_iff]
  constructor
  · rintro ⟨node, found, rfl⟩
    obtain ⟨known, rfl⟩ := get?_eq_some_iff.1 found
    obtain ⟨k, isAt⟩ := List.getElem?_of_mem known
    exact ⟨node, by rwa [numbered k node isAt], rfl⟩
  · rintro ⟨node, found, rfl⟩
    exact ⟨node, get?_at found, numbered i node found⟩

theorem IsNumbered.index_congr (numbered : graph.IsNumbered) (numbered' : other.IsNumbered)
    (names : other.names = graph.names) (name : String) :
    (other.get? name).map (·.index) = (graph.get? name).map (·.index) := by
  apply Option.ext
  intro i
  rw [numbered.index_eq_some_iff, numbered'.index_eq_some_iff, isAt_iff, isAt_iff, names]

/-- The edges of a numbered graph depend on the names of its nodes and on what these lead to. -/
theorem edges_congr {targets : Node → List String} (numbered : graph.IsNumbered)
    (numbered' : other.IsNumbered)
    (same : other.nodes.map (fun node => (node.name, targets node)) =
      graph.nodes.map fun node => (node.name, targets node)) :
    other.edges targets = graph.edges targets := by
  have names : other.names = graph.names := by
    simpa [names, Function.comp_def] using congrArg (List.map Prod.fst) same
  have numbers : other.numbersOf = graph.numbersOf := by
    funext wanted
    simp only [numbersOf, numbered.index_congr numbered' names]
  funext i
  have outline : (other.at? i).map targets = (graph.at? i).map targets := by
    have at' := congrArg (fun l => (l[i]?).map Prod.snd) same
    simpa [at?, Function.comp_def] using at'
  have both : ∀ g : TypeGraph, g.edges targets i =
      (((g.at? i).map targets).map g.numbersOf).getD [] := by
    intro g
    simp [edges, Function.comp_def]
  rw [both, both, outline, numbers]

theorem namesAt_congr (names : other.names = graph.names) : other.namesAt = graph.namesAt := by
  funext positions
  have both : ∀ g : TypeGraph, g.namesAt positions = positions.filterMap (g.names[·]?) := by
    intro g
    simp [namesAt, TypeGraph.names, at?]
  rw [both, both, names]

/-- The check for cycles looks at names and supertypes only. -/
theorem inheritanceCycle?_congr (numbered : graph.IsNumbered) (numbered' : other.IsNumbered)
    (same : other.nodes.map (fun node => (node.name, node.supertypeNames)) =
      graph.nodes.map fun node => (node.name, node.supertypeNames)) :
    other.inheritanceCycle? = graph.inheritanceCycle? := by
  have names : other.names = graph.names := by
    simpa [names, Function.comp_def] using congrArg (List.map Prod.fst) same
  have size : other.size = graph.size := by
    simpa [size] using congrArg List.length same
  have edges : other.supertypeEdges = graph.supertypeEdges := edges_congr numbered numbered' same
  rw [inheritanceCycle?, inheritanceCycle?, edges, size, namesAt_congr names]

theorem map_nodes_ofNodes {β : Type} {f : Node → β}
    (unnumbered : ∀ node i, f { node with index := i } = f node) {nodes : List Node}
    (distinct : (nodes.map (·.name)).Nodup) : (ofNodes nodes).nodes.map f = nodes.map f := by
  have through : ∀ graph : TypeGraph, (graph.names ++ nodes.map (·.name)).Nodup →
      (nodes.foldl .insert graph).nodes.map f = graph.nodes.map f ++ nodes.map f := by
    clear distinct
    induction nodes with
    | nil => simp
    | cons node rest ih =>
      intro graph distinct
      have fresh : node.name ∉ graph.names := by
        intro known
        exact (List.nodup_append.1 distinct).2.2 node.name known node.name (by simp) rfl
      rw [List.foldl_cons, ih, nodes_insert_of_fresh fresh]
      · simp [unnumbered]
      · rw [names_insert, if_neg fresh]
        simpa using distinct
  simpa [ofNodes, empty] using through .empty (by simpa [TypeGraph.names, empty] using distinct)

end Outlines

/-- A graph is refused for cyclic inheritance exactly when direct supertypes lead from a type of it
back to that type.  Two graphs with the same types and the same supertypes are refused alike,
whatever else their types mention. -/
theorem inheritance_refused_iff {nodes : List Node} (distinct : (nodes.map (·.name)).Nodup) :
    ((∃ cycle, (ofNodes nodes).emissionOrder = .error (.cyclicInheritance cycle)) ↔
        ∃ name, TransGen (ofNodes nodes).DerivesFrom name name) ∧
      ∀ others : List Node,
        others.map (fun node => (node.name, node.supertypeNames)) =
          nodes.map (fun node => (node.name, node.supertypeNames)) →
        ∀ cycle, (ofNodes others).emissionOrder = .error (.cyclicInheritance cycle) ↔
          (ofNodes nodes).emissionOrder = .error (.cyclicInheritance cycle) := by
  simp only [emissionOrder_eq_cyclicInheritance_iff]
  constructor
  · rw [← isSome_inheritanceCycle?_iff (isNumbered_ofNodes distinct), Option.isSome_iff_exists]
  · intro others same cycle
    have distinct' : (others.map (·.name)).Nodup := by
      have names := congrArg (List.map Prod.fst) same
      simp only [List.map_map, Function.comp_def] at names
      rwa [names]
    have outlines : (ofNodes others).nodes.map (fun node => (node.name, node.supertypeNames)) =
        (ofNodes nodes).nodes.map fun node => (node.name, node.supertypeNames) := by
      rw [map_nodes_ofNodes (fun _ _ => rfl) distinct, map_nodes_ofNodes (fun _ _ => rfl) distinct',
        same]
    rw [inheritanceCycle?_congr (isNumbered_ofNodes distinct) (isNumbered_ofNodes distinct')
      outlines]

/-- Three types, each a direct supertype of another one, against the order of their discovery. -/
def ringNodes : List Node :=
  [bareNode "A" ["C"] [], bareNode "B" ["A"] [], bareNode "C" ["B"] []]

theorem ring_returns : TransGen (ofNodes ringNodes).DerivesFrom "A" "A" := by
  have first : (ofNodes ringNodes).DerivesFrom "A" "C" := ⟨_, rfl, by decide, by decide⟩
  have second : (ofNodes ringNodes).DerivesFrom "C" "B" := ⟨_, rfl, by decide, by decide⟩
  have third : (ofNodes ringNodes).DerivesFrom "B" "A" := ⟨_, rfl, by decide, by decide⟩
  exact .head first (.head second (.single third))

/-- The ring is refused, also when its types mention each other otherwise. -/
theorem ringNodes_refused :
    TransGen (ofNodes ringNodes).DerivesFrom "A" "A" ∧
      (∃ cycle, (ofNodes ringNodes).emissionOrder = .error (.cyclicInheritance cycle)) ∧
      (ofNodes [bareNode "A" ["C"] ["B"], bareNode "B" ["A"] ["B"], bareNode "C" ["B"] ["A"]]
        ).emissionOrder = .error (.cyclicInheritance ["A", "B", "C", "A"]) := by
  have distinct : (ringNodes.map (·.name)).Nodup := by decide
  obtain ⟨refused, alike⟩ := inheritance_refused_iff distinct
  exact ⟨ring_returns, refused.2 ⟨_, ring_returns⟩, (alike _ (by decide) _).2 (by cbv)⟩

/-- The reported list has a class of types that inherit from each other, in discovery order and
with the first one again at the end.  When the class has one or two types, each is followed by a
direct supertype. -/
theorem reported_cycle_class {nodes : List Node} {cycle : List String}
    (distinct : (nodes.map (·.name)).Nodup)
    (refused : (ofNodes nodes).emissionOrder = .error (.cyclicInheritance cycle)) :
    ∃ first rest, cycle = first :: rest ++ [first] ∧
      (first :: rest).Sublist (nodes.map (·.name)) ∧
      (∀ name, name ∈ first :: rest ↔ TransGen (ofNodes nodes).DerivesFrom first name ∧
        TransGen (ofNodes nodes).DerivesFrom name first) ∧
      (rest.length ≤ 1 → cycle.IsChain (ofNodes nodes).DerivesFrom) := by
  obtain ⟨first, rest, rfl, listed, whole⟩ := exists_class_of_inheritanceCycle?
    (isNumbered_ofNodes distinct) (emissionOrder_eq_cyclicInheritance_iff.1 refused)
  refine ⟨first, rest, rfl, names_ofNodes distinct ▸ listed, whole, fun few => ?_⟩
  cases rest with
  | nil =>
    obtain ⟨forth, back⟩ := (whole first).1 (by simp)
    have itself := step_of_class (fun c there here => by simpa using (whole c).2 ⟨there, here⟩)
      forth back
    simpa using itself
  | cons second rest =>
    obtain rfl : rest = [] := by simpa using few
    obtain ⟨forth, back⟩ := (whole second).1 (by simp)
    have up := step_of_class (fun c there here => by simpa using (whole c).2 ⟨there, here⟩)
      forth back
    have down : (ofNodes nodes).DerivesFrom second first := by
      refine step_of_class (fun c there here => ?_) back forth
      simpa [or_comm] using (whole c).2 ⟨forth.trans there, here.trans back⟩
    simpa using ⟨up, down⟩

/-- Two types that are supertypes of each other are reported as a chain. -/
theorem mutualNodes_chain :
    (ofNodes [bareNode "A" ["B"] [], bareNode "B" ["A"] []]).emissionOrder =
        .error (.cyclicInheritance ["A", "B", "A"]) ∧
      ["A", "B", "A"].IsChain
        (ofNodes [bareNode "A" ["B"] [], bareNode "B" ["A"] []]).DerivesFrom := by
  have refused : (ofNodes [bareNode "A" ["B"] [], bareNode "B" ["A"] []]).emissionOrder =
      .error (.cyclicInheritance ["A", "B", "A"]) := by cbv
  obtain ⟨first, rest, same, -, -, chain⟩ := reported_cycle_class (by decide) refused
  exact ⟨refused, chain (by have := congrArg List.length same; simp at this; omega)⟩

/-- The ring is reported in discovery order, which is no chain of supertypes. -/
theorem ringNodes_not_chain :
    (ringNodes.map (·.name)).Nodup ∧
      (ofNodes ringNodes).emissionOrder = .error (.cyclicInheritance ["A", "B", "C", "A"]) ∧
      ¬ ["A", "B", "C", "A"].IsChain (ofNodes ringNodes).DerivesFrom := by
  refine ⟨by decide, by cbv, fun chain => ?_⟩
  obtain ⟨⟨node, found, inherits, -⟩, -⟩ := List.isChain_cons_cons.1 chain
  have supers : ((ofNodes ringNodes).get? "A").map (·.supertypeNames) = some ["C"] := rfl
  rw [found, Option.map_some, Option.some.injEq] at supers
  rw [supers] at inherits
  revert inherits
  decide

end TypeGraph

end TypeBridge
