import TypeBridge.Closure.Closure
import TypeBridge.Proofs.NumberedGraph
import TypeBridge.Proofs.ReadingMentions

/-!
# The closure holds what its roots lead to

The types of a closure are those types of the model that its roots lead to, and each node is what
reading its type makes.  So everything that a node names is a type of the closure.
-/

namespace TypeBridge

namespace HostView

/-- Reading a type of the model mentions another one. -/
def Mentions (view : HostView) (a b : String) : Prop :=
  ∃ type node mentioned, view.model.get? a = some type ∧
    view.node type = Reading.result node mentioned ∧ b ∈ mentioned ∧ b ∈ view.model.names

/-- A type of the model that some roots lead to. -/
inductive Needed (view : HostView) (roots : List String) : String → Prop
  | root {name : String} (listed : name ∈ roots) (known : name ∈ view.model.names) :
      Needed view roots name
  | mention {a b : String} (needed : Needed view roots a) (mentions : view.Mentions a b) :
      Needed view roots b

/-- A node is what reading its type makes, apart from its number. -/
def IsRead (view : HostView) (node : Node) : Prop :=
  ∃ type mentioned, view.model.get? node.name = some type ∧
    view.node type = Reading.result { node with index := 0 } mentioned

/-- What a closure promises. -/
structure IsClosure (view : HostView) (roots : List String) (graph : TypeGraph) : Prop where
  numbered : graph.IsNumbered
  read : ∀ node ∈ graph.nodes, view.IsRead node
  mem_names_iff : ∀ name, name ∈ graph.names ↔ view.Needed roots name

/-- What holds while a closure grows. -/
structure Growing (view : HostView) (roots : List String) (graph : TypeGraph)
    (queued queue : List String) : Prop where
  numbered : graph.IsNumbered
  read : ∀ node ∈ graph.nodes, view.IsRead node
  distinct : (graph.names ++ queue).Nodup
  seen : ∀ name ∈ graph.names ++ queue, name ∈ queued
  pending : ∀ name ∈ queued, name ∈ view.model.names → name ∈ graph.names ++ queue
  needed : ∀ name ∈ graph.names ++ queue, name ∈ view.model.names → view.Needed roots name
  rooted : ∀ name ∈ roots, name ∈ queued
  closed : ∀ a ∈ graph.names, ∀ b, view.Mentions a b → b ∈ queued

theorem nodup_eraseDups {α : Type} [DecidableEq α] : ∀ l : List α, l.eraseDups.Nodup
  | [] => by simp
  | a :: rest => by
    rw [List.eraseDups_cons, List.nodup_cons]
    exact ⟨by simp [List.mem_eraseDups], nodup_eraseDups _⟩
termination_by l => l.length
decreasing_by exact Nat.lt_succ_of_le (List.length_filter_le _ _)

variable {view : HostView} {roots : List String} {graph : TypeGraph} {queued queue : List String}

theorem IsRead.mem_names {node : Node} (read : view.IsRead node) :
    node.name ∈ view.model.names := by
  obtain ⟨type, _, found, -⟩ := read
  exact HostModel.mem_names_of_get? found

theorem Growing.isClosure (growing : Growing view roots graph queued []) :
    IsClosure view roots graph where
  numbered := growing.numbered
  read := growing.read
  mem_names_iff := by
    have pending := growing.pending
    rw [List.append_nil] at pending
    intro name
    constructor
    · intro member
      obtain ⟨node, known, rfl⟩ := List.mem_map.1 member
      exact growing.needed node.name (by simpa using member) (growing.read node known).mem_names
    · intro needed
      induction needed with
      | root listed known => exact pending _ (growing.rooted _ listed) known
      | mention _ mentions ih =>
        have known := mentions
        obtain ⟨_, _, _, -, -, -, known⟩ := known
        exact pending _ (growing.closed _ ih _ mentions) known

theorem mem_unqueued_iff {names : List String} {name : String} :
    name ∈ view.unqueued queued names ↔
      name ∈ names ∧ name ∈ view.model.names ∧ name ∉ queued := by
  simp [unqueued, List.mem_eraseDups]

theorem Growing.start : Growing view roots .empty roots.eraseDups roots.eraseDups where
  numbered := TypeGraph.isNumbered_empty
  read := by simp [TypeGraph.empty]
  distinct := by simpa [TypeGraph.names, TypeGraph.empty] using nodup_eraseDups roots
  seen := by simp [TypeGraph.names, TypeGraph.empty]
  pending := by
    intro name queued _
    exact List.mem_append_right _ queued
  needed := by
    intro name member known
    apply Needed.root _ known
    simpa [TypeGraph.names, TypeGraph.empty, List.mem_eraseDups] using member
  rooted := fun name listed => List.mem_eraseDups.2 listed
  closed := by simp [TypeGraph.names, TypeGraph.empty]

/-- A queued name without a type is passed over. -/
theorem Growing.skip {name : String} (growing : Growing view roots graph queued (name :: queue))
    (missing : view.model.get? name = none) : Growing view roots graph queued queue := by
  have fewer : (graph.names ++ queue).Sublist (graph.names ++ name :: queue) :=
    (List.sublist_cons_self name queue).append_left _
  refine
    { growing with
      distinct := growing.distinct.sublist fewer
      seen := fun other member => growing.seen other (fewer.mem member)
      pending := ?_
      needed := fun other member => growing.needed other (fewer.mem member) }
  intro other known inModel
  have differs : other ≠ name := by
    rintro rfl
    exact HostModel.get?_eq_none_iff.1 missing inModel
  simpa [differs] using growing.pending other known inModel

theorem Growing.names_insert {name : String} {type : HostType} {node : Node}
    {mentioned : List String} (growing : Growing view roots graph queued (name :: queue))
    (found : view.model.get? name = some type)
    (reading : view.node type = Reading.result node mentioned) :
    node.name = name ∧ node.name ∉ graph.names ∧
      (graph.insert node).names = graph.names ++ [name] := by
  obtain ⟨nodeName, -⟩ := view.node_covers type node mentioned reading
  obtain ⟨-, typeName⟩ := HostModel.get?_eq_some_iff.1 found
  rw [typeName] at nodeName
  have apart := List.nodup_append.1 growing.distinct
  have fresh : node.name ∉ graph.names := by
    intro known
    exact apart.2.2 node.name known name List.mem_cons_self nodeName
  refine ⟨nodeName, fresh, ?_⟩
  rw [TypeGraph.names_insert, if_neg fresh, nodeName]

/-- A queued type is read, and what it mentions is queued behind the others. -/
theorem Growing.insert {name : String} {type : HostType} {node : Node} {mentioned : List String}
    (growing : Growing view roots graph queued (name :: queue))
    (found : view.model.get? name = some type)
    (reading : view.node type = Reading.result node mentioned) :
    Growing view roots (graph.insert node) (queued ++ view.unqueued queued mentioned)
      (queue ++ view.unqueued queued mentioned) := by
  obtain ⟨-, nodeIndex, -⟩ := view.node_covers type node mentioned reading
  obtain ⟨nodeName, fresh, names⟩ := growing.names_insert found reading
  have all : (graph.insert node).names ++ (queue ++ view.unqueued queued mentioned) =
      (graph.names ++ name :: queue) ++ view.unqueued queued mentioned := by
    simp [names]
  refine
    { numbered := growing.numbered.insert fresh
      read := ?_
      distinct := ?_
      seen := ?_
      pending := ?_
      needed := ?_
      rooted := fun root listed => List.mem_append_left _ (growing.rooted root listed)
      closed := ?_ }
  · intro other known
    rw [TypeGraph.nodes_insert_of_fresh fresh, List.mem_append, List.mem_singleton] at known
    rcases known with old | rfl
    · exact growing.read other old
    · refine ⟨type, mentioned, by rwa [nodeName], ?_⟩
      rw [reading, ← nodeIndex]
  · rw [all, List.nodup_append]
    refine ⟨growing.distinct, (nodup_eraseDups mentioned).filter _, ?_⟩
    rintro old known _ new rfl
    exact (mem_unqueued_iff.1 new).2.2 (growing.seen old known)
  · rw [all]
    intro other member
    rcases List.mem_append.1 member with old | new
    · exact List.mem_append_left _ (growing.seen other old)
    · exact List.mem_append_right _ new
  · rw [all]
    intro other member known
    rcases List.mem_append.1 member with old | new
    · exact List.mem_append_left _ (growing.pending other old known)
    · exact List.mem_append_right _ new
  · rw [all]
    intro other member known
    rcases List.mem_append.1 member with old | new
    · exact growing.needed other old known
    · have here : view.Needed roots name :=
        growing.needed name (by simp) (HostModel.mem_names_of_get? found)
      obtain ⟨wanted, inside, -⟩ := mem_unqueued_iff.1 new
      exact here.mention ⟨type, node, mentioned, found, reading, wanted, inside⟩
  · rw [names]
    intro a member b mentions
    rcases List.mem_append.1 member with old | here
    · exact List.mem_append_left _ (growing.closed a old b mentions)
    · rw [List.mem_singleton.1 here] at mentions
      obtain ⟨type', node', mentioned', found', reading', wanted, inside⟩ := mentions
      obtain rfl := Option.some.inj (found.symm.trans found')
      obtain ⟨rfl, rfl⟩ := Reading.result_inj.1 (reading.symm.trans reading')
      by_cases known : b ∈ queued
      · exact List.mem_append_left _ known
      · exact List.mem_append_right _ (mem_unqueued_iff.2 ⟨wanted, inside, known⟩)

theorem Growing.grow {final : TypeGraph} (growing : Growing view roots graph queued queue)
    (grown : view.grow graph queued queue = .ok final) : IsClosure view roots final := by
  induction graph, queued, queue using HostView.grow.induct view with
  | case1 graph queued =>
    rw [HostView.grow] at grown
    cases grown
    exact growing.isClosure
  | case2 graph queued name rest missing ih =>
    rw [HostView.grow, missing] at grown
    exact ih (growing.skip missing) grown
  | case3 graph queued name rest type found error refused =>
    rw [HostView.grow, found] at grown
    simp [refused] at grown
  | case4 graph queued name rest type found node mentioned reading fresh ih =>
    rw [HostView.grow, found] at grown
    simp only [reading] at grown
    exact ih (growing.insert found reading) grown

section

variable (closure : IsClosure view roots graph)
include closure

theorem IsClosure.mem_of_mentions {a b : String} (known : a ∈ graph.names)
    (mentions : view.Mentions a b) : b ∈ graph.names := by
  have needed := (closure.mem_names_iff a).1 known
  exact (closure.mem_names_iff b).2 (needed.mention mentions)

/-- What the types and variants of a node name is a type of the closure. -/
theorem IsClosure.mem_of_named {node : Node} {name : String} (known : node ∈ graph.nodes)
    (named : name ∈ node.types.flatMap (·.names) ++ node.variants) : name ∈ graph.names := by
  obtain ⟨type, mentioned, found, reading⟩ := closure.read node known
  obtain ⟨-, -, admitted, covers⟩ := view.node_covers type _ mentioned reading
  obtain ⟨target, inModel, -⟩ := admitted name named
  have wanted : name ∈ mentioned := by
    apply covers.subset
    rcases List.mem_append.1 named with mention | variant
    · exact List.mem_append_left _ (List.mem_append_left _ (List.mem_append_left _ mention))
    · exact List.mem_append_right _ variant
  exact closure.mem_of_mentions (List.mem_map_of_mem known)
    ⟨type, _, mentioned, found, reading, wanted, HostModel.mem_names_of_get? inModel⟩

theorem IsClosure.mem_of_dependency {node : Node} {name : String} (known : node ∈ graph.nodes)
    (depends : name ∈ node.dependencies) : name ∈ graph.names := by
  have named : name ∈ node.types.flatMap (·.names) ++ node.variants := by
    simpa using (Node.mem_dependencies_iff.1 depends).1
  exact closure.mem_of_named known named

end

theorem isClosure_of_closure {final : TypeGraph} (grown : view.closure roots = .ok final) :
    IsClosure view roots final :=
  Growing.start.grow grown

end HostView

end TypeBridge
