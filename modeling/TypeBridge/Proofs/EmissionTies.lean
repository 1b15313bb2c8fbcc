import TypeBridge.Proofs.GreedyListings
import TypeBridge.Proofs.InheritanceCycles

/-!
# Ties of the emission order

Of the classes of mutually dependent types that wait for emitted types only, the emission order takes
the earliest discovered one, and inside a class the earliest type whose supertypes are placed.  So it
depends on the names of the graph and on two relations between them, and not on how often or in which
order the nodes list them.
-/

namespace TypeBridge.TypeGraph

open Relation Search

/-- The place of a type in the discovery order. -/
def discovery (graph : TypeGraph) (name : String) : Nat :=
  ((graph.get? name).map (·.index)).getD 0

/-- Each of two types depends on the other in any number of steps. -/
def Mutual (graph : TypeGraph) (a b : String) : Prop :=
  graph.Reaches a b ∧ graph.Reaches b a

/-- A type that is not emitted and whose class depends on itself and on emitted types only. -/
def IsFree (graph : TypeGraph) (emitted : List String) (name : String) : Prop :=
  name ∈ graph.names ∧ name ∉ emitted ∧
    ∀ a b, graph.Mutual name a → graph.DependsOn a b → b ∈ emitted ∨ graph.Mutual name b

/-- A type of a group that is not placed and whose direct supertypes in the group are. -/
def IsPlaceable (graph : TypeGraph) (group placed : List String) (name : String) : Prop :=
  name ∈ group ∧ name ∉ placed ∧
    ∀ super, graph.DerivesFrom name super → super ∈ group → super ∈ placed

/-- The group that follows some emitted ones: the class of the earliest free type, each time with
the earliest type whose supertypes in the class are placed. -/
structure IsNextGroup (graph : TypeGraph) (emitted : List (List String)) (group : List String) :
    Prop where
  earliest : ∃ first, LeastReady graph.IsFree graph.discovery emitted.flatten first ∧
    ∀ name, name ∈ group ↔ graph.Mutual first name
  placed : Picks (LeastReady (graph.IsPlaceable group) graph.discovery) [] group

variable {graph other : TypeGraph} {component : List Nat} {order : EmissionOrder}

theorem Mutual.mem_names {a b : String} (both : graph.Mutual a b) (known : a ∈ graph.names) :
    b ∈ graph.names := by
  rcases ReflTransGen.cases_tail both.1 with rfl | ⟨_, -, _, -, -, inGraph⟩
  · exact known
  · exact inGraph

theorem IsNextGroup.ne_nil {emitted : List (List String)} {group : List String}
    (next : graph.IsNextGroup emitted group) : group ≠ [] := by
  obtain ⟨first, -, members⟩ := next.earliest
  exact List.ne_nil_of_mem ((members first).2 ⟨.refl, .refl⟩)

theorem IsNextGroup.nodup {emitted : List (List String)} {group : List String}
    (next : graph.IsNextGroup emitted group) : group.Nodup :=
  (next.placed.nodup fun _ _ picked => picked.1.2.1).1

theorem mem_namesAt_iff_mem {i : Nat} {name : String} (isAt : graph.IsAt i name) :
    name ∈ graph.namesAt component ↔ i ∈ component := by
  rw [mem_namesAt_iff]
  constructor
  · rintro ⟨j, member, isAt'⟩
    rwa [isAt.position_unique isAt']
  · intro member
    exact ⟨i, member, isAt⟩

theorem exists_component_of_isAt {i : Nat} {name : String} (isAt : graph.IsAt i name) :
    ∃ component ∈ graph.dependencyComponents, i ∈ component :=
  exists_component graph.dependencyEdges (List.mem_range.2 isAt.lt_size)

theorem lt_size_of_component (known : component ∈ graph.dependencyComponents) :
    ∀ i ∈ component, i < graph.size :=
  fun _ inside => List.mem_range.1 ((sublist_of_component known).mem inside)

/-- A position is of one component only. -/
theorem component_unique {one two : List Nat} {i : Nat} (first : one ∈ graph.dependencyComponents)
    (second : two ∈ graph.dependencyComponents) (left : i ∈ one) (right : i ∈ two) : one = two :=
  (settled_dependencyComponents.eq_iff_leads first second left right).2 ⟨.refl, .refl⟩

theorem pairwise_lt_component (known : component ∈ graph.dependencyComponents) :
    component.Pairwise (· < ·) :=
  List.pairwise_lt_range.sublist (sublist_of_component known)

/-- Inside a component positions go up, so the first one is the earliest. -/
theorem earliest_le (known : component ∈ graph.dependencyComponents) :
    earliest component ∈ component ∧ ∀ j ∈ component, earliest component ≤ j := by
  have sorted := pairwise_lt_component known
  have nonempty := settled_dependencyComponents.nonempty component known
  cases component with
  | nil => exact absurd rfl nonempty
  | cons first rest =>
    refine ⟨List.mem_cons_self, fun j member => ?_⟩
    rcases List.mem_cons.1 member with rfl | behind
    · exact Nat.le_refl _
    · exact Nat.le_of_lt ((List.pairwise_cons.1 sorted).1 j behind)

section Numbered

variable (numbered : graph.IsNumbered)
include numbered

theorem discovery_of_isAt {i : Nat} {name : String} (isAt : graph.IsAt i name) :
    graph.discovery name = i := by
  rw [discovery, numbered.index_eq_some_iff.2 isAt]
  rfl

/-- Types discovered at the same place are the same. -/
theorem eq_of_discovery_eq {a b : String} (left : a ∈ graph.names) (right : b ∈ graph.names)
    (same : graph.discovery a = graph.discovery b) : a = b := by
  obtain ⟨i, source⟩ := exists_isAt_of_mem left
  obtain ⟨j, target⟩ := exists_isAt_of_mem right
  rw [discovery_of_isAt numbered source, discovery_of_isAt numbered target] at same
  exact source.name_unique (same ▸ target)

/-- After the same groups, only one group can be next. -/
theorem IsNextGroup.unique {emitted : List (List String)} {group group' : List String}
    (next : graph.IsNextGroup emitted group) (next' : graph.IsNextGroup emitted group') :
    group = group' := by
  obtain ⟨first, least, members⟩ := next.earliest
  obtain ⟨first', least', members'⟩ := next'.earliest
  obtain rfl := eq_of_discovery_eq numbered least.1.1 least'.1.1 (least.rank_eq least')
  have alike : ∀ name, name ∈ group ↔ name ∈ group' :=
    fun name => (members name).trans (members' name).symm
  have inGraph : ∀ name ∈ group, name ∈ graph.names :=
    fun name member => ((members name).1 member).mem_names least.1.1
  have placed' := next'.placed
  have samePlaceable : graph.IsPlaceable group' = graph.IsPlaceable group := by
    funext placed name
    simp only [IsPlaceable, alike]
  rw [samePlaceable] at placed'
  refine next.placed.eq_of_perm ?_ placed' ?_
  · intro placed a b one two
    exact eq_of_discovery_eq numbered (inGraph a one.1.1) (inGraph b two.1.1) (one.rank_eq two)
  · exact (List.perm_ext_iff_of_nodup next.nodup next'.nodup).2 alike

/-- A component of positions holds the class of each of its types. -/
theorem mem_namesAt_iff_mutual (known : component ∈ graph.dependencyComponents) {i : Nat}
    {a b : String} (inside : i ∈ component) (source : graph.IsAt i a) :
    b ∈ graph.namesAt component ↔ graph.Mutual a b := by
  have sameClass := mem_component_iff known inside
  rw [mem_namesAt_iff]
  constructor
  · rintro ⟨j, member, target⟩
    obtain ⟨-, forth, back⟩ := (sameClass j).1 member
    exact ⟨(leads_iff_reaches numbered source target).1 forth,
      (leads_iff_reaches numbered target source).1 back⟩
  · intro both
    obtain ⟨j, target⟩ := exists_isAt_of_mem (both.mem_names source.mem_names)
    refine ⟨j, (sameClass j).2 ⟨List.mem_range.2 target.lt_size, ?_, ?_⟩, target⟩
    · exact (leads_iff_reaches numbered source target).2 both.1
    · exact (leads_iff_reaches numbered target source).2 both.2

/-- A component is ready exactly when its types are free. -/
theorem isReady_iff_isFree {picked : List (List Nat)} {emitted : List String}
    (chosen : ∀ one ∈ picked, one ∈ graph.dependencyComponents)
    (mem_emitted_iff : ∀ name, name ∈ emitted ↔ ∃ one ∈ picked, name ∈ graph.namesAt one)
    (known : component ∈ graph.dependencyComponents) {i : Nat} {name : String}
    (inside : i ∈ component) (isAt : graph.IsAt i name) :
    Schedule.IsReady graph.waitsFor graph.dependencyComponents picked component ↔
      graph.IsFree emitted name := by
  have emitted_iff : ∀ {two : List Nat} {j : Nat} {b : String},
      two ∈ graph.dependencyComponents → j ∈ two → graph.IsAt j b →
        (b ∈ emitted ↔ two ∈ picked) := by
    intro two j b known' member target
    rw [mem_emitted_iff]
    constructor
    · rintro ⟨one, picked', named⟩
      have member' := (mem_namesAt_iff_mem target).1 named
      rwa [component_unique known' (chosen one picked') member member']
    · intro picked'
      exact ⟨two, picked', (mem_namesAt_iff_mem target).2 member⟩
  constructor
  · rintro ⟨-, fresh, waitless⟩
    refine ⟨isAt.mem_names, fun late => fresh ((emitted_iff known inside isAt).1 late), ?_⟩
    intro a b both depends
    obtain ⟨v, left, source⟩ :=
      mem_namesAt_iff.1 ((mem_namesAt_iff_mutual numbered known inside isAt).2 both)
    obtain ⟨-, -, -, inGraph⟩ := id depends
    obtain ⟨w, target⟩ := exists_isAt_of_mem inGraph
    obtain ⟨two, known', right⟩ := exists_component_of_isAt target
    by_cases same : component = two
    · rw [← same] at right
      exact Or.inr ((mem_namesAt_iff_mutual numbered known inside isAt).1
        ((mem_namesAt_iff_mem target).2 right))
    · have edge := (mem_dependencyEdges_iff numbered source).2 ⟨b, target, depends⟩
      have waits := waitsFor_eq_true_iff.2 ⟨same, v, left, w, right, edge⟩
      exact Or.inl ((emitted_iff known' right target).2 (waitless two known' waits))
  · rintro ⟨-, fresh, closed⟩
    refine ⟨known, fun late => fresh ((emitted_iff known inside isAt).2 late), ?_⟩
    intro two known' waits
    obtain ⟨differs, v, left, w, right, edge⟩ := waitsFor_eq_true_iff.1 waits
    obtain ⟨a, source⟩ := exists_isAt (lt_size_of_mem_edges edge)
    obtain ⟨b, target, depends⟩ := (mem_dependencyEdges_iff numbered source).1 edge
    have both := (mem_namesAt_iff_mutual numbered known inside isAt).1
      ((mem_namesAt_iff_mem source).2 left)
    rcases closed a b both depends with late | both'
    · exact (emitted_iff known' right target).1 late
    · have member := (mem_namesAt_iff_mutual numbered known inside isAt).2 both'
      exact absurd (component_unique known known' ((mem_namesAt_iff_mem target).1 member) right)
        differs

/-- A position can be placed exactly when its type can. -/
theorem awaits_iff_isPlaceable {group : List String} {picked : List Nat}
    (members : ∀ name, name ∈ group ↔ name ∈ graph.namesAt component) {i : Nat} {name : String}
    (isAt : graph.IsAt i name) :
    Placement.Awaits graph.supertypeEdges component picked i ↔
      graph.IsPlaceable group (graph.namesAt picked) name := by
  rw [Placement.Awaits, IsPlaceable, members, mem_namesAt_iff_mem isAt, mem_namesAt_iff_mem isAt,
    Placement.isReady_iff]
  refine and_congr_right fun _ => and_congr_right fun _ => ?_
  constructor
  · intro ready super derives inside
    obtain ⟨j, target⟩ := exists_isAt_of_mem derives.choose_spec.2.2
    have edge := (mem_supertypeEdges_iff numbered isAt).2 ⟨super, target, derives⟩
    rw [members, mem_namesAt_iff_mem target] at inside
    exact (mem_namesAt_iff_mem target).2 (ready j edge inside)
  · intro ready j edge inside
    obtain ⟨super, target, derives⟩ := (mem_supertypeEdges_iff numbered isAt).1 edge
    have placed := ready super derives ((members super).2 ((mem_namesAt_iff_mem target).2 inside))
    exact (mem_namesAt_iff_mem target).1 placed

end Numbered

/-- The types of a component as they are declared. -/
def groupOf (graph : TypeGraph) (component : List Nat) : List String :=
  graph.namesAt (supertypesFirst graph.supertypeEdges component)

section Ordered

variable (numbered : graph.IsNumbered) (noCycle : graph.inheritanceCycle? = none)
include noCycle

theorem mem_groupOf_iff (known : component ∈ graph.dependencyComponents) (name : String) :
    name ∈ graph.groupOf component ↔ name ∈ graph.namesAt component := by
  have distinct : component.Nodup := (pairwise_lt_component known).imp Nat.ne_of_lt
  have perm := (perm_supertypesFirst distinct (supertypeEdges_acyclic noCycle)).1
  rw [groupOf, mem_namesAt_iff, mem_namesAt_iff]
  exact exists_congr fun i => and_congr_left fun _ => perm.mem_iff

include numbered

/-- Inside a group the earliest type whose supertypes are placed is next. -/
theorem picks_groupOf (known : component ∈ graph.dependencyComponents) :
    Picks (LeastReady (graph.IsPlaceable (graph.groupOf component)) graph.discovery) []
      (graph.groupOf component) := by
  have members := mem_groupOf_iff noCycle known
  have sorted := pairwise_lt_component known
  have acyclic := supertypeEdges_acyclic noCycle
  have inGraph := lt_size_of_component known
  have perm := (perm_supertypesFirst (sorted.imp Nat.ne_of_lt) acyclic).1
  have listed : graph.groupOf component =
      (supertypesFirst graph.supertypeEdges component).map graph.nameAt :=
    namesAt_eq_map fun i member => inGraph i (perm.mem_iff.1 member)
  suffices carries : ∀ picked i, (∀ j ∈ picked, j ∈ component) →
      LeastReady (Placement.Awaits graph.supertypeEdges component) id picked i →
        LeastReady (graph.IsPlaceable (graph.groupOf component)) graph.discovery
          (picked.map graph.nameAt) (graph.nameAt i) by
    have picks := (picks_supertypesFirst sorted acyclic).map graph.nameAt (· ∈ component)
      (fun _ _ least => least.1.1) carries (by simp)
    rwa [← listed] at picks
  intro picked i before least
  obtain ⟨name, isAt⟩ := exists_isAt (inGraph i least.1.1)
  have placed := namesAt_eq_map fun j member => inGraph j (before j member)
  rw [← placed, isAt.nameAt_eq]
  refine ⟨(awaits_iff_isPlaceable numbered members isAt).1 least.1, ?_⟩
  intro later placeable
  obtain ⟨j, -, isAt'⟩ := mem_namesAt_iff.1 placeable.1
  rw [discovery_of_isAt numbered isAt, discovery_of_isAt numbered isAt']
  exact least.2 j ((awaits_iff_isPlaceable numbered members isAt').2 placeable)

/-- A component that is scheduled next is declared as the next group. -/
theorem isNextGroup_groupOf {picked : List (List Nat)}
    (chosen : ∀ one ∈ picked, one ∈ graph.dependencyComponents)
    (least : LeastReady (Schedule.IsReady graph.waitsFor graph.dependencyComponents)
      TypeGraph.earliest picked component) :
    graph.IsNextGroup (picked.map graph.groupOf) (graph.groupOf component) := by
  have known := least.1.1
  obtain ⟨inside, -⟩ := earliest_le known
  have mem_emitted_iff : ∀ name, name ∈ (picked.map graph.groupOf).flatten ↔
      ∃ one ∈ picked, name ∈ graph.namesAt one := by
    intro name
    rw [← List.flatMap_def, List.mem_flatMap]
    apply exists_congr
    intro one
    exact and_congr_right fun member => mem_groupOf_iff noCycle (chosen one member) name
  obtain ⟨first, isAt⟩ := exists_isAt (lt_size_of_component known _ inside)
  have free := (isReady_iff_isFree numbered chosen mem_emitted_iff known inside isAt).1 least.1
  refine ⟨⟨first, ⟨free, ?_⟩, ?_⟩, picks_groupOf numbered noCycle known⟩
  · intro name free'
    obtain ⟨j, isAt'⟩ := exists_isAt_of_mem free'.1
    obtain ⟨two, known', inside'⟩ := exists_component_of_isAt isAt'
    have ready := (isReady_iff_isFree numbered chosen mem_emitted_iff known' inside' isAt').2 free'
    rw [discovery_of_isAt numbered isAt, discovery_of_isAt numbered isAt']
    exact (least.2 two ready).trans ((earliest_le known').2 j inside')
  · intro name
    rw [mem_groupOf_iff noCycle known]
    exact mem_namesAt_iff_mutual numbered known inside isAt

end Ordered

/-- Each group of an emission order is the one that follows those before it. -/
theorem picks_groups (numbered : graph.IsNumbered) (ordered : graph.emissionOrder = .ok order) :
    Picks graph.IsNextGroup [] order.groups := by
  obtain ⟨noCycle, -, groups⟩ := emissionOrder_eq_ok_iff.1 ordered
  rw [groups]
  exact (picks_schedule graph.waitsFor earliest settled_dependencyComponents.nodup).map
    graph.groupOf (· ∈ graph.dependencyComponents) (fun _ _ least => least.1.1)
    (fun _ _ chosen least => isNextGroup_groupOf numbered noCycle chosen least) (by simp)

theorem ne_nil_of_picks {groups : List (List String)}
    (picks : Picks graph.IsNextGroup [] groups) : ∀ group ∈ groups, group ≠ [] := by
  intro group member
  obtain ⟨_, next⟩ := picks.exists_rule member
  exact next.ne_nil

/-- Groups that go on from others and have no more types are the same. -/
theorem eq_of_prefix_of_length_flatten {α : Type} {groups groups' : List (List α)}
    (before : groups <+: groups') (nonempty : ∀ group ∈ groups', group ≠ [])
    (size : groups.flatten.length = groups'.flatten.length) : groups = groups' := by
  obtain ⟨more, rfl⟩ := before
  rw [List.flatten_append, List.length_append] at size
  have none : more.flatten = [] := List.length_eq_zero_iff.1 (by omega)
  cases more with
  | nil => exact (List.append_nil _).symm
  | cons group more =>
    have empty := List.flatten_eq_nil_iff.1 none group List.mem_cons_self
    exact absurd empty (nonempty group (by simp))

/-- Collisions are between names, whatever else the nodes have. -/
theorem collision?_congr {nodes others earlier earlier' : List Node}
    (before : earlier'.map (·.name) = earlier.map (·.name))
    (names : others.map (·.name) = nodes.map (·.name)) :
    collision? earlier' others = collision? earlier nodes := by
  induction nodes generalizing others earlier earlier' with
  | nil =>
    rw [List.map_nil, List.map_eq_nil_iff] at names
    rw [names]
    rfl
  | cons node nodes ih =>
    cases others with
    | nil => simp at names
    | cons node' others =>
      rw [List.map_cons, List.map_cons, List.cons.injEq] at names
      obtain ⟨same, names⟩ := names
      have found : (earlier'.find? fun first =>
            Name.spelled first.name == Name.spelled node'.name).map (·.name) =
          (earlier.find? fun first =>
            Name.spelled first.name == Name.spelled node.name).map (·.name) := by
        have first := congrArg
          (List.find? fun name => Name.spelled name == Name.spelled node.name) before
        rw [List.find?_map, List.find?_map] at first
        rw [same]
        exact first
      unfold collision?
      rw [same] at found ⊢
      cases here : earlier.find? fun first =>
        Name.spelled first.name == Name.spelled node.name with
      | none =>
        rw [here, Option.map_none, Option.map_eq_none_iff] at found
        rw [found]
        exact ih (by simp [before, same]) names
      | some first =>
        rw [here, Option.map_some, Option.map_eq_some_iff] at found
        obtain ⟨first', here', alike⟩ := found
        rw [here']
        simp only [alike]

section Alike

variable (names : other.names = graph.names) (dependsOn : other.DependsOn = graph.DependsOn)
  (derivesFrom : other.DerivesFrom = graph.DerivesFrom)
include names dependsOn derivesFrom

/-- What is next depends on the names of a graph and on the relations between them. -/
theorem isNextGroup_congr (numbered : graph.IsNumbered) (numbered' : other.IsNumbered) :
    other.IsNextGroup = graph.IsNextGroup := by
  have discovery : other.discovery = graph.discovery := by
    funext name
    rw [discovery, discovery, numbered.index_congr numbered' names]
  have both : other.Mutual = graph.Mutual := by
    funext a b
    rw [Mutual, Mutual, Reaches, Reaches, dependsOn]
  have isFree : other.IsFree = graph.IsFree := by
    funext emitted name
    rw [IsFree, IsFree, names, dependsOn, both]
  have isPlaceable : other.IsPlaceable = graph.IsPlaceable := by
    funext group placed name
    rw [IsPlaceable, IsPlaceable, derivesFrom]
  funext emitted group
  apply propext
  constructor
  · rintro ⟨earliest, placed⟩
    rw [isFree, both, discovery] at earliest
    rw [isPlaceable, discovery] at placed
    exact ⟨earliest, placed⟩
  · rintro ⟨earliest, placed⟩
    rw [← isFree, ← both, ← discovery] at earliest
    rw [← isPlaceable, ← discovery] at placed
    exact ⟨earliest, placed⟩

/-- A graph has the same order as one with the same names and the same relations. -/
theorem emissionOrder_congr (numbered : graph.IsNumbered) (numbered' : other.IsNumbered)
    (ordered : graph.emissionOrder = .ok order) : other.emissionOrder = .ok order := by
  obtain ⟨noCycle, noCollision, -⟩ := emissionOrder_eq_ok_iff.1 ordered
  have noCycle' : other.inheritanceCycle? = none := by
    rw [← Option.not_isSome_iff_eq_none, isSome_inheritanceCycle?_iff numbered', derivesFrom,
      ← isSome_inheritanceCycle?_iff numbered, noCycle]
    simp
  have noCollision' : collision? [] other.nodes = none := by
    rw [collision?_congr rfl names, noCollision]
  obtain ⟨order', ordered'⟩ : ∃ order', other.emissionOrder = .ok order' :=
    ⟨⟨_⟩, emissionOrder_eq_ok_iff.2 ⟨noCycle', noCollision', rfl⟩⟩
  have picks := picks_groups numbered ordered
  have picks' := picks_groups numbered' ordered'
  rw [isNextGroup_congr names dependsOn derivesFrom numbered numbered'] at picks'
  have size : order'.groups.flatten.length = order.groups.flatten.length := by
    have perm := names_perm_of_ordered ordered
    have perm' := names_perm_of_ordered ordered'
    rw [names] at perm'
    exact (perm'.trans perm.symm).length_eq
  have same : order'.groups = order.groups := by
    rcases picks'.prefix_or_prefix (fun _ _ _ one two => one.unique numbered two) picks with
      before | before
    · exact eq_of_prefix_of_length_flatten before (ne_nil_of_picks picks) size
    · exact (eq_of_prefix_of_length_flatten before (ne_nil_of_picks picks') size.symm).symm
  rw [ordered', Except.ok.injEq]
  exact congrArg EmissionOrder.mk same

end Alike

/-- Each group of an emission order is the class of the earliest type whose class waits for emitted
types only, placed by always taking the earliest type whose supertypes are placed.  Nodes with the
same names, in the same order, and with the same relations between them have the same order. -/
theorem emissionOrder_greedy {nodes : List Node} {order : EmissionOrder}
    (distinct : (nodes.map (·.name)).Nodup)
    (ordered : (ofNodes nodes).emissionOrder = .ok order) :
    Picks (ofNodes nodes).IsNextGroup [] order.groups ∧
      order.names.Perm (nodes.map (·.name)) ∧
      ∀ others : List Node, others.map (·.name) = nodes.map (·.name) →
        (∀ a b, (ofNodes others).DependsOn a b ↔ (ofNodes nodes).DependsOn a b) →
        (∀ a b, (ofNodes others).DerivesFrom a b ↔ (ofNodes nodes).DerivesFrom a b) →
        (ofNodes others).emissionOrder = .ok order := by
  have numbered := isNumbered_ofNodes distinct
  refine ⟨picks_groups numbered ordered, names_ofNodes distinct ▸ names_perm_of_ordered ordered, ?_⟩
  intro others names dependsOn derivesFrom
  have distinct' : (others.map (·.name)).Nodup := names ▸ distinct
  have sameNames : (ofNodes others).names = (ofNodes nodes).names := by
    rw [names_ofNodes distinct, names_ofNodes distinct', names]
  have sameDependencies : (ofNodes others).DependsOn = (ofNodes nodes).DependsOn :=
    funext₂ fun a b => propext (dependsOn a b)
  have sameSupertypes : (ofNodes others).DerivesFrom = (ofNodes nodes).DerivesFrom :=
    funext₂ fun a b => propext (derivesFrom a b)
  exact emissionOrder_congr sameNames sameDependencies sameSupertypes numbered
    (isNumbered_ofNodes distinct') ordered

/-- Links agree when they agree between the names of the graph. -/
theorem linkedBy_iff_of_mem {targets : Node → List String} (names : other.names = graph.names)
    (alike : ∀ a ∈ graph.names, ∀ b ∈ graph.names,
      (other.LinkedBy targets a b ↔ graph.LinkedBy targets a b)) (a b : String) :
    other.LinkedBy targets a b ↔ graph.LinkedBy targets a b := by
  constructor
  · intro link
    obtain ⟨left, right⟩ := link.mem_names
    exact (alike a (names ▸ left) b (names ▸ right)).1 link
  · intro link
    obtain ⟨left, right⟩ := link.mem_names
    exact (alike a left b right).2 link

/-- Supertypes and dependencies in another order, repeated, or missing in the graph change nothing. -/
theorem entangledNodes_greedy :
    (ofNodes entangledNodes).emissionOrder = .ok ⟨[["A", "B"], ["C"]]⟩ ∧
      (ofNodes [bareNode "B" ["A", "A"] ["E", "A"], bareNode "C" [] ["B", "D", "B"],
        bareNode "A" [] ["B", "B"]]).emissionOrder = .ok ⟨[["A", "B"], ["C"]]⟩ := by
  have ordered : (ofNodes entangledNodes).emissionOrder = .ok ⟨[["A", "B"], ["C"]]⟩ := by cbv
  obtain ⟨-, -, alike⟩ := emissionOrder_greedy (by decide) ordered
  refine ⟨ordered, alike _ (by decide) ?_ ?_⟩
  · exact linkedBy_iff_of_mem (by decide) (by decide)
  · exact linkedBy_iff_of_mem (by decide) (by decide)

end TypeBridge.TypeGraph
