import Mathlib
import TypeBridge.Proofs.ComponentSearch
import TypeBridge.Proofs.NumberedGraph
import TypeBridge.Proofs.Scheduling
import TypeBridge.Proofs.SupertypePlacement

/-!
# The emission order is a topological order

The groups of an emission order are the classes of mutually dependent types.  A type depends only on
types of its own group and of earlier ones, and all its supertypes stand before it, also inside its
group.
-/

namespace TypeBridge

open Relation Search

namespace EmissionOrder

theorem mem_numbered_iff {order : EmissionOrder} {number : Nat} {name : String} :
    (number, name) ∈ order.numbered ↔
      ∃ group, order.groups[number]? = some group ∧ name ∈ group := by
  simp only [numbered, List.mem_flatMap, List.mem_map, Prod.mk.injEq, Prod.exists,
    List.mk_mem_zipIdx_iff_getElem?]
  constructor
  · rintro ⟨group, index, found, other, member, rfl, rfl⟩
    exact ⟨group, found, member⟩
  · rintro ⟨group, found, member⟩
    exact ⟨group, number, found, name, member, rfl, rfl⟩

end EmissionOrder

namespace TypeGraph

variable {graph : TypeGraph} {order : EmissionOrder}

/-- An order exists when no type inherits from itself and no two spelled names collide. -/
theorem emissionOrder_eq_ok_iff :
    graph.emissionOrder = .ok order ↔
      graph.inheritanceCycle? = none ∧ collision? [] graph.nodes = none ∧
        order.groups = graph.scheduledComponents.map fun component =>
          graph.namesAt (supertypesFirst graph.supertypeEdges component) := by
  unfold emissionOrder
  cases graph.inheritanceCycle? with
  | some cycle => simp
  | none =>
    cases collision? [] graph.nodes with
    | some error => simp
    | none =>
      obtain ⟨groups⟩ := order
      simp [eq_comm]

/-- Only positions have edges. -/
theorem lt_size_of_mem_edges {targets : Node → List String} {v w : Nat}
    (edge : w ∈ graph.edges targets v) : v < graph.size := by
  rw [edges] at edge
  cases found : graph.at? v with
  | none => simp [found] at edge
  | some node => exact (List.getElem?_eq_some_iff.1 found).1

/-- A component has a cycle when a walk returns to one of its members. -/
theorem isCyclic_iff {next : Nat → List Nat} {vertices component : List Nat} (distinct : vertices.Nodup)
    (known : component ∈ components next vertices) :
    isCyclic next component = true ↔
      ∃ v ∈ component, TransGen (Edge next vertices) v v := by
  have settled := (settled_components next vertices).1
  have inside := sublist_of_component known
  constructor
  · intro cyclic
    cases component with
    | nil => simp [isCyclic] at cyclic
    | cons first rest =>
      cases rest with
      | nil =>
        have itself : first ∈ next first := by simpa [isCyclic] using cyclic
        exact ⟨first, by simp, .single ⟨itself, inside.mem (by simp)⟩⟩
      | cons second rest =>
        have differs : first ≠ second := by
          rintro rfl
          have nodup := distinct.sublist inside
          simp at nodup
        have forth := settled.connected _ known first (by simp) second (by simp)
        have back := settled.connected _ known second (by simp) first (by simp)
        exact ⟨first, by simp, (transGen_of_leads forth differs).trans_left back⟩
  · rintro ⟨v, member, returns⟩
    obtain ⟨w, edge, back⟩ := TransGen.head'_iff.1 returns
    have member' : w ∈ component :=
      (mem_component_iff known member w).2 ⟨edge.2, .single edge, back⟩
    cases component with
    | nil => simp at member
    | cons first rest =>
      cases rest with
      | nil =>
        obtain rfl := List.mem_singleton.1 member
        obtain rfl := List.mem_singleton.1 member'
        simpa [isCyclic] using edge.1
      | cons second rest => rfl

/-- Without an inheritance cycle no chain of supertypes returns to its start. -/
theorem supertypeEdges_acyclic (noCycle : graph.inheritanceCycle? = none) (v : Nat) :
    ¬TransGen (fun a b => b ∈ graph.supertypeEdges a) v v := by
  intro returns
  have inside : ∀ {a}, TransGen (fun a b => b ∈ graph.supertypeEdges a) a v →
      a ∈ List.range graph.size := by
    intro a chain
    obtain ⟨_, edge, -⟩ := TransGen.head'_iff.1 chain
    exact List.mem_range.2 (lt_size_of_mem_edges edge)
  -- every type on the chain is a position, since another edge leaves it
  have walk : TransGen (Edge graph.supertypeEdges (List.range graph.size)) v v := by
    have walks : ∀ a, TransGen (fun a b => b ∈ graph.supertypeEdges a) a v →
        TransGen (Edge graph.supertypeEdges (List.range graph.size)) a v := by
      intro a chain
      induction chain using TransGen.head_induction_on with
      | single edge => exact .single ⟨edge, inside returns⟩
      | head edge rest ih => exact .head ⟨edge, inside rest⟩ ih
    exact walks v returns
  obtain ⟨component, known, member⟩ := exists_component graph.supertypeEdges (inside returns)
  have cyclic := (isCyclic_iff List.nodup_range known).2 ⟨v, member, walk⟩
  simp only [inheritanceCycle?, Option.map_eq_none_iff, List.find?_eq_none] at noCycle
  exact noCycle component known cyclic

theorem settled_dependencyComponents :
    Settled graph.dependencyEdges (List.range graph.size) graph.dependencyComponents :=
  (settled_components _ _).1

theorem waitsFor_eq_true_iff {component other : List Nat} :
    graph.waitsFor component other = true ↔
      component ≠ other ∧ ∃ v ∈ component, ∃ w ∈ other, w ∈ graph.dependencyEdges v := by
  simp only [waitsFor, Bool.and_eq_true, bne_iff_ne, List.any_eq_true, List.contains_iff_mem]
  refine and_congr_right fun _ => exists_congr fun v => and_congr_right fun _ => ?_
  exact exists_congr fun w => and_comm

/-- The scheduling places every component, and none before one that it depends on. -/
theorem scheduledComponents_perm :
    graph.scheduledComponents.Perm graph.dependencyComponents ∧
      graph.scheduledComponents.Pairwise fun earlier later =>
        ¬graph.waitsFor earlier later = true := by
  have settled := graph.settled_dependencyComponents
  refine perm_schedule _ settled.nodup ?_ ?_
  · intro component _ waits
    exact (waitsFor_eq_true_iff.1 waits).1 rfl
  · refine settled.ordered.imp_of_mem fun _ known none waits => ?_
    obtain ⟨-, v, left, w, right, edge⟩ := waitsFor_eq_true_iff.1 waits
    exact none v left w right (.single ⟨edge, (settled.sublist _ known).mem right⟩)

theorem nodup_scheduledComponents : graph.scheduledComponents.Nodup :=
  scheduledComponents_perm.1.nodup_iff.2 settled_dependencyComponents.nodup

theorem mem_dependencyComponents_of_scheduled {number : Nat} {component : List Nat}
    (found : graph.scheduledComponents[number]? = some component) :
    component ∈ graph.dependencyComponents :=
  scheduledComponents_perm.1.mem_iff.1 (List.mem_of_getElem? found)

theorem nodup_of_scheduled {component : List Nat}
    (known : component ∈ graph.scheduledComponents) : component.Nodup :=
  List.nodup_range.sublist (sublist_of_component (scheduledComponents_perm.1.mem_iff.1 known))

theorem mem_dependencies_of_supertype {node : Node} {super : String}
    (inherits : super ∈ node.supertypeNames) (differs : super ≠ node.name) :
    super ∈ node.dependencies := by
  obtain ⟨type, member, named⟩ := List.mem_filterMap.1 inherits
  have mentioned : super ∈ type.names := by
    cases type <;> simp_all [ResolvedType.name?, ResolvedType.names]
  refine Node.mem_dependencies_iff.2 ⟨Or.inl ⟨type, ?_, mentioned⟩, differs⟩
  exact List.mem_append_left _ (List.mem_append_left _ member)

/-- What one list holds stands before what a later list holds. -/
theorem pair_sublist_flatten {α : Type} {lists : List (List α)} {k l : Nat} {one other : List α}
    {a b : α} (earlier : k < l) (first : lists[k]? = some one) (second : lists[l]? = some other)
    (left : a ∈ one) (right : b ∈ other) : [a, b].Sublist lists.flatten := by
  induction lists generalizing k l with
  | nil => simp at first
  | cons head rest ih =>
    rw [List.flatten_cons]
    obtain ⟨l, rfl⟩ : ∃ before, l = before + 1 := ⟨l - 1, by omega⟩
    rw [List.getElem?_cons_succ] at second
    cases k with
    | zero =>
      obtain rfl : head = one := by simpa using first
      have later : b ∈ rest.flatten :=
        List.mem_flatten.2 ⟨other, List.mem_of_getElem? second, right⟩
      exact (List.singleton_sublist.2 left).append (List.singleton_sublist.2 later)
    | succ k =>
      rw [List.getElem?_cons_succ] at first
      exact List.sublist_append_of_sublist_right (ih (by omega) first second)

section Ordered

variable (ordered : graph.emissionOrder = .ok order)
include ordered

/-- A component is declared whole, each member behind its supertypes. -/
theorem placement_of_scheduled {component : List Nat}
    (known : component ∈ graph.scheduledComponents) :
    (supertypesFirst graph.supertypeEdges component).Perm component ∧
      ∀ member ∈ component, ∀ super ∈ graph.supertypeEdges member, super ∈ component →
        [super, member].Sublist (supertypesFirst graph.supertypeEdges component) :=
  perm_supertypesFirst (nodup_of_scheduled known)
    (supertypeEdges_acyclic (emissionOrder_eq_ok_iff.1 ordered).1)

/-- The number of a name is the place of the component that holds its position. -/
theorem mem_numbered_iff_scheduled {number : Nat} {name : String} :
    (number, name) ∈ order.numbered ↔
      ∃ component, graph.scheduledComponents[number]? = some component ∧
        ∃ i ∈ component, graph.IsAt i name := by
  rw [EmissionOrder.mem_numbered_iff, (emissionOrder_eq_ok_iff.1 ordered).2.2]
  simp only [List.getElem?_map, Option.map_eq_some_iff]
  constructor
  · rintro ⟨group, ⟨component, found, rfl⟩, member⟩
    obtain ⟨i, inside, known⟩ := mem_namesAt_iff.1 member
    have perm := (placement_of_scheduled ordered (List.mem_of_getElem? found)).1
    exact ⟨component, found, i, perm.mem_iff.1 inside, known⟩
  · rintro ⟨component, found, i, inside, known⟩
    have perm := (placement_of_scheduled ordered (List.mem_of_getElem? found)).1
    exact ⟨_, ⟨component, found, rfl⟩, mem_namesAt_iff.2 ⟨i, perm.mem_iff.2 inside, known⟩⟩

/-- Every type of the graph is declared exactly once. -/
theorem names_perm_of_ordered : order.names.Perm graph.names := by
  have names : order.names = graph.namesAt
      (graph.scheduledComponents.map (supertypesFirst graph.supertypeEdges)).flatten := by
    rw [EmissionOrder.names, (emissionOrder_eq_ok_iff.1 ordered).2.2, namesAt,
      List.filterMap_flatten, List.map_map]
    rfl
  have placed : (graph.scheduledComponents.map (supertypesFirst graph.supertypeEdges)).flatten.Perm
      graph.scheduledComponents.flatten := by
    have each : ∀ component ∈ graph.scheduledComponents,
        (supertypesFirst graph.supertypeEdges component).Perm component :=
      fun component known => (placement_of_scheduled ordered known).1
    generalize graph.scheduledComponents = components at each
    induction components with
    | nil => exact .refl _
    | cons component components ih =>
      rw [List.map_cons, List.flatten_cons, List.flatten_cons]
      exact (each component List.mem_cons_self).append
        (ih fun other known => each other (List.mem_cons_of_mem _ known))
  rw [names, ← namesAt_range]
  refine List.Perm.filterMap _ (placed.trans ?_)
  exact scheduledComponents_perm.1.flatten.trans (flatten_components_perm _ List.nodup_range)

theorem exists_number_of_mem {name : String} (known : name ∈ graph.names) :
    ∃ number, (number, name) ∈ order.numbered := by
  have emitted : name ∈ order.groups.flatten := (names_perm_of_ordered ordered).mem_iff.2 known
  obtain ⟨group, member, inside⟩ := List.mem_flatten.1 emitted
  obtain ⟨number, found⟩ := List.getElem?_of_mem member
  exact ⟨number, EmissionOrder.mem_numbered_iff.2 ⟨group, found, inside⟩⟩

variable (isNumbered : graph.IsNumbered)
include isNumbered

/-- Two types share a group exactly when each reaches the other. -/
theorem number_eq_iff {k l : Nat} {a b : String} (first : (k, a) ∈ order.numbered)
    (second : (l, b) ∈ order.numbered) :
    k = l ↔ graph.Reaches a b ∧ graph.Reaches b a := by
  obtain ⟨one, oneAt, i, left, source⟩ := (mem_numbered_iff_scheduled ordered).1 first
  obtain ⟨other, otherAt, j, right, target⟩ := (mem_numbered_iff_scheduled ordered).1 second
  have sameComponent := settled_dependencyComponents.eq_iff_leads
    (mem_dependencyComponents_of_scheduled oneAt) (mem_dependencyComponents_of_scheduled otherAt)
    left right
  rw [leads_iff_reaches isNumbered source target,
    leads_iff_reaches isNumbered target source] at sameComponent
  rw [← sameComponent]
  have inside := (List.getElem?_eq_some_iff.1 oneAt).1
  rw [← List.getElem?_inj inside nodup_scheduledComponents, oneAt, otherAt, Option.some.injEq]

/-- A type is declared in no earlier group than one that it depends on. -/
theorem number_le_of_dependsOn {k l : Nat} {a b : String} (first : (k, a) ∈ order.numbered)
    (second : (l, b) ∈ order.numbered) (depends : graph.DependsOn a b) : l ≤ k := by
  obtain ⟨one, oneAt, i, left, source⟩ := (mem_numbered_iff_scheduled ordered).1 first
  obtain ⟨other, otherAt, j, right, target⟩ := (mem_numbered_iff_scheduled ordered).1 second
  have edge : j ∈ graph.dependencyEdges i :=
    (mem_dependencyEdges_iff isNumbered source).2 ⟨b, target, depends⟩
  by_contra later
  obtain ⟨inside, oneEq⟩ := List.getElem?_eq_some_iff.1 oneAt
  obtain ⟨inside', otherEq⟩ := List.getElem?_eq_some_iff.1 otherAt
  have notWaiting := List.pairwise_iff_getElem.1 graph.scheduledComponents_perm.2 k l inside
    inside' (by omega)
  rw [oneEq, otherEq] at notWaiting
  refine notWaiting (waitsFor_eq_true_iff.2 ⟨?_, i, left, j, right, edge⟩)
  rintro rfl
  have sameNumber := (List.getElem?_inj inside nodup_scheduledComponents).1
    (oneAt.trans otherAt.symm)
  omega

/-- A type is declared in no earlier group than one that it reaches. -/
theorem number_le_of_reaches {k l : Nat} {a b : String} (first : (k, a) ∈ order.numbered)
    (second : (l, b) ∈ order.numbered) (reaches : graph.Reaches a b) : l ≤ k := by
  induction reaches generalizing l with
  | refl =>
    exact ((number_eq_iff ordered isNumbered first second).2 ⟨.refl, .refl⟩).ge
  | tail _ depends ih =>
    obtain ⟨node, found, wanted⟩ := depends
    obtain ⟨known, rfl⟩ := get?_eq_some_iff.1 found
    obtain ⟨between, third⟩ := exists_number_of_mem ordered (List.mem_map_of_mem known)
    have depends : graph.DependsOn node.name _ := ⟨node, found, wanted⟩
    exact (number_le_of_dependsOn ordered isNumbered third second depends).trans (ih third)

theorem dependsOn_of_supertype {a b : String} {i j : Nat}
    (edge : j ∈ graph.supertypeEdges i) (source : graph.IsAt i a) (target : graph.IsAt j b) :
    graph.DependsOn a b := by
  obtain ⟨node, found, name, inherits, known⟩ := (mem_edges_iff isNumbered).1 edge
  obtain rfl : b = name := target.name_unique known
  obtain rfl : node.name = a := IsAt.name_unique ⟨node, found, rfl⟩ source
  have differs : b ≠ node.name := by
    rintro rfl
    obtain rfl : j = i := target.position_unique source
    exact supertypeEdges_acyclic (emissionOrder_eq_ok_iff.1 ordered).1 j (.single edge)
  exact ⟨node, get?_at found, mem_dependencies_of_supertype inherits differs, target.mem_names⟩

/-- Every type stands behind its direct supertypes. -/
theorem supertype_sublist_names {node : Node} {super : String} (known : node ∈ graph.nodes)
    (inherits : super ∈ node.supertypeNames) (inGraph : super ∈ graph.names) :
    [super, node.name].Sublist order.names := by
  obtain ⟨i, found⟩ : ∃ i, graph.at? i = some node := List.getElem?_of_mem known
  have source : graph.IsAt i node.name := ⟨node, found, rfl⟩
  obtain ⟨j, target⟩ := exists_isAt_of_mem inGraph
  have edge : j ∈ graph.supertypeEdges i :=
    (mem_edges_iff isNumbered).2 ⟨node, found, super, inherits, target⟩
  have depends := dependsOn_of_supertype ordered isNumbered edge source target
  obtain ⟨k, first⟩ := exists_number_of_mem ordered (List.mem_map_of_mem known)
  obtain ⟨l, second⟩ := exists_number_of_mem ordered inGraph
  rcases Nat.lt_or_eq_of_le (number_le_of_dependsOn ordered isNumbered first second depends) with
    earlier | rfl
  · obtain ⟨group, groupAt, member⟩ := EmissionOrder.mem_numbered_iff.1 first
    obtain ⟨group', groupAt', member'⟩ := EmissionOrder.mem_numbered_iff.1 second
    exact pair_sublist_flatten earlier groupAt' groupAt member' member
  · obtain ⟨component, placed, i', inside, source'⟩ :=
      (mem_numbered_iff_scheduled ordered).1 first
    obtain ⟨_, placed', j', inside', target'⟩ := (mem_numbered_iff_scheduled ordered).1 second
    obtain rfl := Option.some.inj (placed.symm.trans placed')
    obtain rfl := source.position_unique source'
    obtain rfl := target.position_unique target'
    have member := List.mem_of_getElem? placed
    have pair := (placement_of_scheduled ordered member).2 i inside j edge inside'
    have names : graph.namesAt [j, i] = [super, node.name] := by
      obtain ⟨superNode, found', rfl⟩ := target
      simp [namesAt, found, found']
    rw [← names, EmissionOrder.names, (emissionOrder_eq_ok_iff.1 ordered).2.2]
    exact (pair.filterMap _).trans (List.sublist_flatten_of_mem (List.mem_map_of_mem member))

end Ordered

/-- A class with some supertypes and with a field of each of some types. -/
def bareNode (name : String) (supertypes fields : List String) : Node where
  name := name
  kind := .class
  doc := none
  generics := []
  members := fields.map fun field => ⟨field, .field, .named field [], false, false, none⟩
  supertypes := supertypes.map fun super => .named super []
  nested := []
  variants := []
  constants := []
  index := 0

/-- A subtype that stands before its supertype, which mentions it and a missing type, and a further
type that mentions the subtype. -/
def entangledNodes : List Node :=
  [bareNode "B" ["A"] [], bareNode "C" [] ["B"], bareNode "A" [] ["B", "D"]]

/-- In a graph of nodes with distinct names, the groups of the emission order are the classes of
types that reach each other, in an order in which no type depends on a later group.  The scheduling
behind it places every class, and no count of it ever falls below zero. -/
theorem emissionOrder_condensation {nodes : List Node} {order : EmissionOrder}
    (distinct : (nodes.map (·.name)).Nodup)
    (ordered : (ofNodes nodes).emissionOrder = .ok order) :
    order.names.Nodup ∧ order.names.Perm (nodes.map (·.name)) ∧
      (∀ k a l b, (k, a) ∈ order.numbered → (l, b) ∈ order.numbered →
        (k = l ↔ (ofNodes nodes).Reaches a b ∧ (ofNodes nodes).Reaches b a) ∧
          ((ofNodes nodes).DependsOn a b → l ≤ k)) ∧
      (ofNodes nodes).scheduledComponents.Perm (ofNodes nodes).dependencyComponents ∧
      ∀ n, ∀ entry ∈ ((Schedule.step (ofNodes nodes).waitsFor earliest)^[n]
        (Schedule.start (ofNodes nodes).waitsFor earliest
          (ofNodes nodes).dependencyComponents)).pending, 0 ≤ entry.2 := by
  have isNumbered := isNumbered_ofNodes distinct
  have perm : order.names.Perm (nodes.map (·.name)) :=
    names_ofNodes distinct ▸ names_perm_of_ordered ordered
  refine ⟨perm.nodup_iff.2 distinct, perm, ?_, scheduledComponents_perm.1, ?_⟩
  · intro k a l b first second
    exact ⟨number_eq_iff ordered isNumbered first second,
      number_le_of_dependsOn ordered isNumbered first second⟩
  · intro n
    exact (Schedule.sound_iterate earliest settled_dependencyComponents.nodup n).zero_le

/-- A supertype and the subtype that it mentions share a group. -/
theorem entangledNodes_condensation :
    (ofNodes entangledNodes).emissionOrder = .ok ⟨[["A", "B"], ["C"]]⟩ ∧
      (ofNodes entangledNodes).Reaches "A" "B" ∧ (ofNodes entangledNodes).Reaches "B" "A" := by
  have ordered : (ofNodes entangledNodes).emissionOrder = .ok ⟨[["A", "B"], ["C"]]⟩ := by cbv
  obtain ⟨-, -, groups, -⟩ := emissionOrder_condensation (by decide) ordered
  exact ⟨ordered, (groups 0 "A" 0 "B" (by decide) (by decide)).1.1 rfl⟩

/-- In a graph of nodes with distinct names, every type is declared behind its direct supertypes,
and whenever members of a group wait for their place one of them is ready. -/
theorem supertypes_declared_first {nodes : List Node} {order : EmissionOrder}
    (distinct : (nodes.map (·.name)).Nodup)
    (ordered : (ofNodes nodes).emissionOrder = .ok order) :
    order.names.Nodup ∧
      (∀ node ∈ (ofNodes nodes).nodes, ∀ super ∈ node.supertypeNames,
        super ∈ (ofNodes nodes).names → [super, node.name].Sublist order.names) ∧
      ∀ component ∈ (ofNodes nodes).scheduledComponents, ∀ n,
        let placement :=
          (Placement.step (ofNodes nodes).supertypeEdges component)^[n] ⟨[], component⟩
        placement.waiting ≠ [] → ∃ member ∈ placement.waiting,
          Placement.isReady (ofNodes nodes).supertypeEdges component placement.placed member =
            true := by
  have isNumbered := isNumbered_ofNodes distinct
  refine ⟨(names_perm_of_ordered ordered).nodup_iff.2 (ofNodes nodes).distinct, ?_, ?_⟩
  · intro node known super inherits inGraph
    exact supertype_sublist_names ordered isNumbered known inherits inGraph
  · intro component known n placement more
    have acyclic := supertypeEdges_acyclic (emissionOrder_eq_ok_iff.1 ordered).1
    exact (Placement.sound_iterate (nodup_of_scheduled known) acyclic n).exists_ready acyclic more

/-- The supertype stands before the subtype that was inserted first. -/
theorem entangledNodes_supertypes :
    (ofNodes entangledNodes).emissionOrder = .ok ⟨[["A", "B"], ["C"]]⟩ ∧
      ["A", "B"].Sublist (⟨[["A", "B"], ["C"]]⟩ : EmissionOrder).names := by
  have ordered : (ofNodes entangledNodes).emissionOrder = .ok ⟨[["A", "B"], ["C"]]⟩ := by cbv
  obtain ⟨-, behind, -⟩ := supertypes_declared_first (by decide) ordered
  exact ⟨ordered, behind { bareNode "B" ["A"] [] with index := 0 } (by decide) "A" (by decide)
    (by decide)⟩

end TypeGraph

end TypeBridge
