import Mathlib.Order.Bounds.Basic
import TypeBridge.Proofs.ClosureReachability
import TypeBridge.Proofs.MentionedTypes
import TypeBridge.Proofs.Outcomes

/-!
# Closures are breadth first

The types of a closure are the types of the model that the roots lead to, and they are discovered in
the order of their distance from the roots.  While the closure grows every queued type has a depth:
the queue is sorted by it, and no queued type is more than one step deeper than the next one to be
read.
-/

namespace TypeBridge

namespace HostView

/-- A name that some roots lead to in a number of steps. -/
inductive ReachedIn (view : HostView) (roots : List String) : Nat → String → Prop
  | root {name : String} (listed : name ∈ roots) : ReachedIn view roots 0 name
  | step {n : Nat} {a b : String} (reached : ReachedIn view roots n a) (leads : view.Leads a b) :
      ReachedIn view roots (n + 1) b

/-- What holds of the depths while a closure grows. -/
structure Layered (view : HostView) (roots : List String) (graph : TypeGraph)
    (queued queue : List String) (depth : String → Nat) : Prop where
  sorted : (graph.names ++ queue).Pairwise fun a b => depth a ≤ depth b
  reached : ∀ name ∈ queued, view.ReachedIn roots (depth name) name
  rooted : ∀ name ∈ roots, depth name = 0
  near : ∀ a ∈ queue, ∀ b ∈ queued, depth b ≤ depth a + 1
  closed : ∀ a ∈ graph.names, ∀ b ∈ view.model.names, view.Leads a b →
    b ∈ queued ∧ depth b ≤ depth a + 1

variable {view : HostView} {roots : List String} {graph : TypeGraph} {queued queue : List String}
  {depth : String → Nat}

theorem Leads.exists_type {a b : String} (leads : view.Leads a b) :
    ∃ type, view.model.get? a = some type := by
  cases leads with
  | signature found _ _ | nested found _ _ _ | outer found _ _ | variant found _ _ =>
    exact ⟨_, found⟩

theorem Layered.start :
    Layered view roots .empty roots.eraseDups roots.eraseDups fun _ => 0 where
  sorted := List.pairwise_of_forall fun _ _ => Nat.le_refl 0
  reached := fun name member => .root (List.mem_eraseDups.1 member)
  rooted := fun _ _ => rfl
  near := by simp
  closed := by simp [TypeGraph.names, TypeGraph.empty]

theorem Layered.skip {name : String}
    (layered : Layered view roots graph queued (name :: queue) depth) :
    Layered view roots graph queued queue depth := by
  have fewer : (graph.names ++ queue).Sublist (graph.names ++ name :: queue) :=
    (List.sublist_cons_self name queue).append_left _
  exact
    { layered with
      sorted := layered.sorted.sublist fewer
      near := fun a member => layered.near a (List.mem_cons_of_mem _ member) }

/-- What a type mentions for the first time is one step deeper than the type. -/
theorem Layered.insert {name : String} {type : HostType} {node : Node} {mentioned : List String}
    (layered : Layered view roots graph queued (name :: queue) depth)
    (growing : Growing view roots graph queued (name :: queue))
    (found : view.model.get? name = some type)
    (reading : view.node type = Reading.result node mentioned) :
    ∃ deeper, Layered view roots (graph.insert node) (queued ++ view.unqueued queued mentioned)
      (queue ++ view.unqueued queued mentioned) deeper := by
  obtain ⟨-, -, names⟩ := growing.names_insert found reading
  let fresh := view.unqueued queued mentioned
  let deeper (other : String) : Nat := if other ∈ fresh then depth name + 1 else depth other
  have deeper_new : ∀ other ∈ fresh, deeper other = depth name + 1 :=
    fun other member => if_pos member
  have deeper_old : ∀ other ∈ queued, deeper other = depth other := by
    intro other known
    exact if_neg fun member => (mem_unqueued_iff.1 member).2.2 known
  have here : name ∈ queued := growing.seen name (by simp)
  have near : ∀ other ∈ queued, depth other ≤ depth name + 1 := layered.near name List.mem_cons_self
  have first : ∀ other ∈ queue, depth name ≤ depth other :=
    (List.pairwise_cons.1 (List.pairwise_append.1 layered.sorted).2.1).1
  have waiting : ∀ other ∈ queue, other ∈ queued := fun other member =>
    growing.seen other (List.mem_append_right _ (List.mem_cons_of_mem _ member))
  refine ⟨deeper, ?_, ?_, ?_, ?_, ?_⟩
  · have all : (graph.insert node).names ++ (queue ++ fresh) =
        (graph.names ++ name :: queue) ++ fresh := by
      simp [names]
    rw [all, List.pairwise_append]
    refine ⟨?_, ?_, ?_⟩
    · refine layered.sorted.imp_of_mem ?_
      intro a b memberA memberB le
      rwa [deeper_old a (growing.seen a memberA), deeper_old b (growing.seen b memberB)]
    · refine List.pairwise_of_forall_mem_list ?_
      intro a memberA b memberB
      rw [deeper_new a memberA, deeper_new b memberB]
    · intro a memberA b memberB
      rw [deeper_old a (growing.seen a memberA), deeper_new b memberB]
      exact near a (growing.seen a memberA)
  · intro other member
    rcases List.mem_append.1 member with old | new
    · rw [deeper_old other old]
      exact layered.reached other old
    · rw [deeper_new other new]
      obtain ⟨mention, -, -⟩ := mem_unqueued_iff.1 new
      exact (layered.reached name here).step ((mem_mentioned_iff found reading).1 mention)
  · intro root listed
    rw [deeper_old root (growing.rooted root listed)]
    exact layered.rooted root listed
  · intro a memberA b memberB
    have belowName : deeper b ≤ depth name + 1 := by
      rcases List.mem_append.1 memberB with old | new
      · exact deeper_old b old ▸ near b old
      · exact (deeper_new b new).le
    have aboveName : depth name ≤ deeper a := by
      rcases List.mem_append.1 memberA with old | new
      · exact deeper_old a (waiting a old) ▸ first a old
      · exact (deeper_new a new).symm ▸ Nat.le_succ _
    omega
  · rw [names]
    intro a member b inModel leads
    rcases List.mem_append.1 member with old | last
    · obtain ⟨known, le⟩ := layered.closed a old b inModel leads
      have seen := growing.seen a (List.mem_append_left _ old)
      rw [deeper_old a seen, deeper_old b known]
      exact ⟨List.mem_append_left _ known, le⟩
    · rw [List.mem_singleton.1 last] at leads ⊢
      rw [deeper_old name here]
      by_cases known : b ∈ queued
      · rw [deeper_old b known]
        exact ⟨List.mem_append_left _ known, near b known⟩
      · have mention := (mem_mentioned_iff found reading).2 leads
        have new : b ∈ fresh := mem_unqueued_iff.2 ⟨mention, inModel, known⟩
        exact ⟨List.mem_append_right _ new, (deeper_new b new).le⟩

theorem Layered.grow {final : TypeGraph} (growing : Growing view roots graph queued queue)
    (layered : ∃ depth, Layered view roots graph queued queue depth)
    (grown : view.grow graph queued queue = .ok final) :
    ∃ queued depth, Growing view roots final queued [] ∧
      Layered view roots final queued [] depth := by
  induction graph, queued, queue using HostView.grow.induct view with
  | case1 graph queued =>
    rw [HostView.grow] at grown
    cases grown
    obtain ⟨depth, layered⟩ := layered
    exact ⟨queued, depth, growing, layered⟩
  | case2 graph queued name rest missing ih =>
    rw [HostView.grow, missing] at grown
    obtain ⟨depth, layered⟩ := layered
    exact ih (growing.skip missing) ⟨depth, layered.skip⟩ grown
  | case3 graph queued name rest type found error refused =>
    rw [HostView.grow, found] at grown
    simp [refused] at grown
  | case4 graph queued name rest type found node mentioned reading fresh ih =>
    rw [HostView.grow, found] at grown
    simp only [reading] at grown
    obtain ⟨depth, layered⟩ := layered
    exact ih (growing.insert found reading) (layered.insert growing found reading) grown

/-- At the end every type that the roots lead to is queued, at no more than its distance. -/
theorem Layered.mem_queued (layered : Layered view roots graph queued [] depth)
    (growing : Growing view roots graph queued []) {n : Nat} {name : String}
    (reached : view.ReachedIn roots n name) (inModel : name ∈ view.model.names) :
    name ∈ queued ∧ depth name ≤ n := by
  induction reached with
  | root listed => exact ⟨growing.rooted _ listed, (layered.rooted _ listed).le⟩
  | @step n a b _ leads ih =>
    obtain ⟨type, found⟩ := leads.exists_type
    obtain ⟨known, rfl⟩ := HostModel.get?_eq_some_iff.1 found
    obtain ⟨queued, le⟩ := ih (List.mem_map_of_mem known)
    have read := growing.pending _ queued (List.mem_map_of_mem known)
    rw [List.append_nil] at read
    obtain ⟨next, deeper⟩ := layered.closed _ read b inModel leads
    exact ⟨next, by omega⟩

theorem Layered.depth_le (layered : Layered view roots graph queued [] depth)
    (numbered : graph.IsNumbered) {node other : Node} (known : node ∈ graph.nodes)
    (known' : other ∈ graph.nodes) (le : node.index ≤ other.index) :
    depth node.name ≤ depth other.name := by
  obtain ⟨i, found⟩ := List.getElem?_of_mem known
  obtain ⟨j, found'⟩ := List.getElem?_of_mem known'
  rw [numbered i node found, numbered j other found'] at le
  have sorted := layered.sorted
  rw [List.append_nil, TypeGraph.names, List.pairwise_map] at sorted
  obtain ⟨inside, rfl⟩ := List.getElem?_eq_some_iff.1 found
  obtain ⟨inside', rfl⟩ := List.getElem?_eq_some_iff.1 found'
  rcases Nat.eq_or_lt_of_le le with rfl | lt
  · exact le_refl _
  · exact List.pairwise_iff_getElem.1 sorted i j inside inside' lt

/-- The closure of some roots has each type of the model that they lead to, once, and numbers these
types in the order of their distance from the roots. -/
theorem closure_breadthFirst (closed : view.closure roots = .ok graph) :
    graph.names.Nodup ∧
      (∀ name, name ∈ graph.names ↔
        name ∈ view.model.names ∧ ∃ n, view.ReachedIn roots n name) ∧
      ∀ node ∈ graph.nodes, ∀ other ∈ graph.nodes, node.index ≤ other.index →
        ∀ m n, IsLeast {k | view.ReachedIn roots k node.name} m →
          IsLeast {k | view.ReachedIn roots k other.name} n → m ≤ n := by
  obtain ⟨queued, depth, growing, layered⟩ := Layered.grow Growing.start ⟨_, Layered.start⟩ closed
  have queued_of_mem : ∀ name ∈ graph.names, name ∈ queued := by
    intro name member
    exact growing.seen name (List.mem_append_left _ member)
  have inModel : ∀ node ∈ graph.nodes, node.name ∈ view.model.names :=
    fun node known => (growing.read node known).mem_names
  refine ⟨graph.distinct, ?_, ?_⟩
  · intro name
    constructor
    · intro member
      obtain ⟨node, known, rfl⟩ := List.mem_map.1 member
      exact ⟨inModel node known, depth node.name, layered.reached _ (queued_of_mem _ member)⟩
    · rintro ⟨known, n, reached⟩
      obtain ⟨member, -⟩ := layered.mem_queued growing reached known
      simpa using growing.pending name member known
  · intro node known other known' le m n least least'
    have distance : ∀ node ∈ graph.nodes, ∀ n,
        IsLeast {k | view.ReachedIn roots k node.name} n → depth node.name = n := by
      intro node known n least
      apply le_antisymm
      · exact (layered.mem_queued growing least.1 (inModel node known)).2
      · exact least.2 (layered.reached _ (queued_of_mem _ (List.mem_map_of_mem known)))
    rw [← distance node known m least, ← distance other known' n least']
    exact layered.depth_le growing.numbered known known' le

/-- A type whose only supertype is given no arguments, the bound that stands in for them, and a
variant of that. -/
def variantModel : HostModel where
  types := [
    { Snapshot.plainType with name := "A", supertypes := [.named "B" []] },
    { Snapshot.plainType with name := "B", generics := [⟨"T", some (.named "C" []), none⟩] },
    { Snapshot.plainType with
      name := "C", supertypes := [.named "A" []], closed := true, variants := ["D"] },
    { Snapshot.plainType with name := "D" }]
  distinct := by decide

/-- The first type leads to the bound in one step and to the variant in two. -/
theorem variantModel_breadthFirst :
    ∃ graph, (HostView.mk variantModel ⟨[]⟩).closure ["A"] = .ok graph ∧
      graph.names = ["A", "B", "C", "D"] ∧ graph.names.Nodup ∧
      (∀ name, name ∈ graph.names ↔ name ∈ variantModel.names ∧
        ∃ n, (HostView.mk variantModel ⟨[]⟩).ReachedIn ["A"] n name) ∧
      ∀ node ∈ graph.nodes, ∀ other ∈ graph.nodes, node.index ≤ other.index →
        ∀ m n, IsLeast {k | (HostView.mk variantModel ⟨[]⟩).ReachedIn ["A"] k node.name} m →
          IsLeast {k | (HostView.mk variantModel ⟨[]⟩).ReachedIn ["A"] k other.name} n → m ≤ n := by
  have evaluated : ((HostView.mk variantModel ⟨[]⟩).closure ["A"]).toOption.map (·.names) =
      some ["A", "B", "C", "D"] := by
    cbv
  obtain ⟨graph, closed, names⟩ := Option.map_eq_some_iff.1 evaluated
  rw [Outcome.toOption_eq_some_iff] at closed
  exact ⟨graph, closed, names, closure_breadthFirst closed⟩

end HostView

end TypeBridge
