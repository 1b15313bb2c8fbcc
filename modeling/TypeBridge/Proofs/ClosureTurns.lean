import Mathlib.Data.List.Induction
import Mathlib.Data.List.Perm.Subperm
import TypeBridge.Proofs.ClosureReachability
import TypeBridge.Proofs.LimitedResolution
import TypeBridge.Proofs.Outcomes

/-!
# The turns of the queue

A closure grows in turns, each of which takes a name from the queue and reads its type.  With calls
nested as deep as the signatures and the number of types of the model allow, no turn is lost, and
no name is taken twice: the names taken before and the names in the queue are distinct, and all of
them are roots or mentioned by the model.  So the turns come to an end, in a graph or in an error.
-/

namespace TypeBridge

namespace Work

/-- The names of a list that were not in the queue yet, each once. -/
def fresh (work : Work) (names : List String) : List String :=
  names.eraseDups.filter (· ∉ work.queued)

theorem mem_fresh_iff {work : Work} {names : List String} {name : String} :
    name ∈ work.fresh names ↔ name ∈ names ∧ name ∉ work.queued := by
  simp [fresh, List.mem_eraseDups]

theorem fresh_concat (work : Work) (names : List String) (name : String) :
    work.fresh (names ++ [name]) =
      work.fresh names ++ if name ∈ work.queued ++ work.fresh names then [] else [name] := by
  by_cases met : name ∈ names
  · simp [fresh, List.eraseDups_append, List.removeAll, List.mem_eraseDups, met, em]
  · by_cases known : name ∈ work.queued <;>
      simp [fresh, List.eraseDups_append, List.removeAll, List.eraseDups_cons,
        List.mem_eraseDups, met, known]

theorem enqueueAll_eq (work : Work) (names : List String) :
    work.enqueueAll names =
      { work with
        queue := work.queue ++ work.fresh names
        queued := work.queued ++ work.fresh names } := by
  induction names using List.reverseRecOn with
  | nil => simp [enqueueAll, fresh]
  | append_singleton names name ih =>
    have last : work.enqueueAll (names ++ [name]) = (work.enqueueAll names).enqueue name := by
      rw [enqueueAll, List.foldl_append]
      rfl
    rw [last, ih, fresh_concat, enqueue]
    split <;> simp

end Work

/-- What has grown, and what is shared, between two turns. -/
structure Growth where
  graph : TypeGraph
  work : Work

namespace Growth

/-- What one turn leads to. -/
inductive Turn where
  | ended (graph : TypeGraph)
  | refused (error : PassError)
  | onwards (later : Growth)
  /-- A call was nested too deep. -/
  | lost

def start (roots : List String) : Growth where
  graph := .empty
  work := Work.enqueueAll ⟨[], [], []⟩ roots

theorem work_start (roots : List String) :
    (start roots).work = ⟨roots.eraseDups, roots.eraseDups, []⟩ := by
  rw [start, Work.enqueueAll_eq]
  simp [Work.fresh]

end Growth

namespace HostView

/-- Take a name from the queue and read its type, with calls nested up to a depth. -/
def turn (view : HostView) (depth : Nat) (growth : Growth) : Growth.Turn :=
  match growth.work.queue with
  | [] => .ended growth.graph
  | name :: rest =>
    match view.model.get? name with
    | none => .onwards ⟨growth.graph, { growth.work with queue := rest }⟩
    | some type =>
      match ((view.nodeWithin depth type).run { growth.work with queue := rest }).run with
      | none => .lost
      | some (.error error) => .refused error
      | some (.ok (node, work)) => .onwards ⟨growth.graph.insert node, work⟩

/-- Grow in a number of turns.  A growth that is not over by then is lost. -/
def growWithin (view : HostView) (depth : Nat) : Nat → Growth → Option (Except PassError TypeGraph)
  | 0, _ => none
  | turns + 1, growth =>
    match view.turn depth growth with
    | .ended graph => some (.ok graph)
    | .refused error => some (.error error)
    | .onwards later => view.growWithin depth turns later
    | .lost => none

def closureWithin (view : HostView) (depth turns : Nat) (roots : List String) :
    Option (Except PassError TypeGraph) :=
  view.growWithin depth turns (.start roots)

/-- The names that a number of turns takes from the queue. -/
def taken (view : HostView) (depth : Nat) : Nat → Growth → List String
  | 0, _ => []
  | turns + 1, growth =>
    growth.work.queue.head?.toList ++
      match view.turn depth growth with
      | .onwards later => view.taken depth turns later
      | _ => []

/-- How deep calls are nested at most when the types of the model are read. -/
def callDepth (view : HostView) : Nat :=
  view.model.names.length * view.boundHeight +
    Signature.heightOfAll ((view.model.types.flatMap view.placed).map (·.signature))

/-- Every name that can come into the queue. -/
def mentionable (view : HostView) (roots : List String) : List String :=
  roots.eraseDups ++ view.model.names ++
    view.model.types.flatMap fun type => type.nested.map (·.name)

/-- What holds between two turns, when some names were taken before. -/
structure Underway (view : HostView) (roots done : List String) (growth : Growth) : Prop where
  idle : growth.work.busy = []
  queued : growth.work.queued = done ++ growth.work.queue
  distinct : growth.work.queued.Nodup
  known : ∀ name ∈ growth.work.queued, name ∈ view.mentionable roots

variable {view : HostView} {depth : Nat} {roots done : List String} {growth : Growth}

theorem Underway.start : Underway view roots [] (.start roots) := by
  constructor <;> rw [Growth.work_start]
  · rw [List.nil_append]
  · exact nodup_eraseDups roots
  · exact fun name listed => List.mem_append_left _ (List.mem_append_left _ listed)

theorem answers_of_mem_placed {type : HostType} {placed : Placed} (deep : view.callDepth ≤ depth)
    (inModel : type ∈ view.model.types) (member : placed ∈ view.placed type) :
    view.Answers depth ⟨[], placed⟩ := by
  apply answers_of_rank_le
  refine Nat.le_trans (Nat.add_le_add (Nat.mul_le_mul_right _ List.countP_le_length) ?_) deep
  exact Signature.height_le_heightOfAll
    (List.mem_map_of_mem (List.mem_flatMap.2 ⟨type, inModel, member⟩))

theorem mem_mentionable {type : HostType} {node : Node} {mentioned : List String} {name : String}
    (inModel : type ∈ view.model.types) (reading : view.node type = Reading.result node mentioned)
    (member : name ∈ mentioned) : name ∈ view.mentionable roots := by
  obtain ⟨-, -, -, covers⟩ := view.node_covers type node mentioned reading
  rcases covers.allowed name member with admits | ⟨inner, nested, rfl, -⟩ | outer
  · exact List.mem_append_left _ (List.mem_append_right _ admits.mem_names)
  · exact List.mem_append_right _
      (List.mem_flatMap.2 ⟨type, inModel, List.mem_map_of_mem nested⟩)
  · have contained := (Option.filter_eq_some_iff.1 outer).2
    exact List.mem_append_left _
      (List.mem_append_right _ (HostModel.contains_iff.1 contained))

theorem filter_unqueued {queued names : List String} :
    (view.unqueued queued names).filter (· ∈ view.model.names) = view.unqueued queued names :=
  List.filter_eq_self.2 fun _ member => decide_eq_true (mem_unqueued_iff.1 member).2.1

theorem unqueued_congr {queued queued' names : List String}
    (same : ∀ name ∈ view.model.names, name ∈ queued ↔ name ∈ queued') :
    view.unqueued queued names = view.unqueued queued' names := by
  refine List.filter_congr fun name _ => ?_
  by_cases inModel : name ∈ view.model.names
  · simp only [same name inModel]
  · simp [inModel]

/-- Names outside of the model make no difference to what grows. -/
theorem grow_congr {graph : TypeGraph} {queued queued' queue : List String}
    (same : ∀ name ∈ view.model.names, name ∈ queued ↔ name ∈ queued') :
    view.grow graph queued queue =
      view.grow graph queued' (queue.filter (· ∈ view.model.names)) := by
  fun_induction HostView.grow view graph queued queue generalizing queued' with
  | case1 => rw [List.filter_nil, HostView.grow]
  | case2 graph queued name rest missing ih =>
    rw [List.filter_cons_of_neg (by simpa using HostModel.get?_eq_none_iff.1 missing)]
    exact ih same
  | case3 graph queued name rest type found error refused =>
    rw [List.filter_cons_of_pos (by simpa using HostModel.mem_names_of_get? found),
      HostView.grow, found]
    simp only [refused]
  | case4 graph queued name rest type found node mentioned reading fresh =>
    rename_i ih
    have later : ∀ name ∈ view.model.names, name ∈ queued ++ fresh ↔ name ∈ queued' ++ fresh := by
      intro name inModel
      rw [List.mem_append, List.mem_append, same name inModel]
    rw [List.filter_cons_of_pos (by simpa using HostModel.mem_names_of_get? found),
      HostView.grow, found]
    simp only [reading]
    rw [ih later, List.filter_append, filter_unqueued, ← unqueued_congr same]

/-- Two stages of one graph grow alike when they wait for the same names of the model. -/
theorem grow_eq_of_filter_eq {graph : TypeGraph} {queued queued' queue queue' : List String}
    (same : ∀ name ∈ view.model.names, name ∈ queued ↔ name ∈ queued')
    (waiting : queue.filter (· ∈ view.model.names) = queue'.filter (· ∈ view.model.names)) :
    view.grow graph queued queue = view.grow graph queued' queue' := by
  rw [grow_congr same, waiting]
  exact (grow_congr fun _ _ => Iff.rfl).symm

theorem filter_fresh {work : Work} {names : List String} :
    (work.fresh names).filter (· ∈ view.model.names) = view.unqueued work.queued names := by
  rw [Work.fresh, List.filter_filter, unqueued]

/-- What growth comes to, with all turns and all depth that it needs. -/
def completed (view : HostView) (growth : Growth) : Except PassError TypeGraph :=
  view.grow growth.graph growth.work.queued growth.work.queue

/-- What a turn leads to comes to the same as before. -/
def Continues (view : HostView) (roots done : List String) (growth : Growth) : Growth.Turn → Prop
  | .ended graph => view.completed growth = .ok graph
  | .refused error => view.completed growth = .error error
  | .onwards later => view.completed growth = view.completed later ∧
      ∃ name, growth.work.queue.head? = some name ∧ Underway view roots (done ++ [name]) later
  | .lost => False

/-- Reading a type continues the growth with what it mentions behind the rest of the queue. -/
theorem completed_insert {name : String} {type : HostType} {node : Node} {mentioned : List String}
    {graph : TypeGraph} (work : Work) (found : view.model.get? name = some type)
    (reading : view.node type = Reading.result node mentioned) :
    view.completed ⟨graph, { work with queue := name :: work.queue }⟩ =
      view.completed ⟨graph.insert node, work.enqueueAll mentioned⟩ := by
  rw [completed, HostView.grow, found]
  simp only [reading, Reading.result, completed, work.enqueueAll_eq]
  apply grow_eq_of_filter_eq
  · intro other inModel
    simp only [List.mem_append, mem_unqueued_iff, Work.mem_fresh_iff, inModel, true_and]
  · rw [List.filter_append, List.filter_append, filter_unqueued, filter_fresh]

/-- What is mentioned goes behind the rest of the queue. -/
theorem Underway.enqueueAll {work : Work} {mentioned : List String} {graph : TypeGraph}
    (underway : Underway view roots done ⟨graph, work⟩)
    (mentionable : ∀ name ∈ mentioned, name ∈ view.mentionable roots) :
    Underway view roots done ⟨graph, work.enqueueAll mentioned⟩ := by
  rw [work.enqueueAll_eq]
  constructor
  · exact underway.idle
  · dsimp only
    rw [underway.queued, List.append_assoc]
  · refine List.nodup_append.2 ⟨underway.distinct, (nodup_eraseDups mentioned).filter _, ?_⟩
    rintro old known _ new rfl
    exact (Work.mem_fresh_iff.1 new).2 known
  · intro name member
    rcases List.mem_append.1 member with old | new
    · exact underway.known name old
    · exact mentionable name (Work.mem_fresh_iff.1 new).1

/-- A turn takes one name from the queue, and nothing is lost. -/
theorem Underway.continues (underway : Underway view roots done growth)
    (deep : view.callDepth ≤ depth) :
    view.Continues roots done growth (view.turn depth growth) := by
  obtain ⟨graph, queue, queued, busy⟩ := growth
  obtain rfl : busy = [] := underway.idle
  cases queue with
  | nil =>
    simp only [turn, Continues, completed]
    rw [HostView.grow]
  | cons name rest =>
    have rested : ∀ graph, Underway view roots (done ++ [name]) ⟨graph, ⟨rest, queued, []⟩⟩ :=
      fun graph => { underway with queued := by simpa using underway.queued }
    unfold turn
    dsimp only
    cases found : view.model.get? name with
    | none =>
      refine ⟨?_, name, rfl, rested graph⟩
      rw [completed, HostView.grow, found]
      rfl
    | some type =>
      obtain ⟨inModel, -⟩ := HostModel.get?_eq_some_iff.1 found
      -- No type is in the set between two turns, so reading runs from the empty set.
      have runs := follows_node (fun _ => answers_of_mem_placed deep inModel) ⟨rest, queued, []⟩ rfl
      rcases Reading.eq_refuse_or_result (view.node type) with
        ⟨error, reading⟩ | ⟨node, mentioned, reading⟩
      · simp only [runs, reading, Reading.refuse, Reading.queuing, Continues, completed]
        rw [HostView.grow, found]
        simp only [reading, Reading.refuse]
      · simp only [runs, reading, Reading.result, Reading.queuing, Continues]
        refine ⟨completed_insert ⟨rest, queued, []⟩ found reading, name, rfl, ?_⟩
        exact (rested _).enqueueAll fun _ => mem_mentionable inModel reading

/-- The names that were taken are not more than all that can come into the queue. -/
theorem Underway.length_le (underway : Underway view roots done growth) :
    done.length ≤ (view.mentionable roots).length := by
  have prefixed : done.length ≤ growth.work.queued.length := by
    rw [underway.queued, List.length_append]
    exact Nat.le_add_right _ _
  exact Nat.le_trans prefixed (underway.distinct.subperm underway.known).length_le

/-- Growth is completed in one turn more than there are names left that can come into the queue. -/
theorem Underway.growWithin_eq {turns : Nat} (deep : view.callDepth ≤ depth)
    (underway : Underway view roots done growth)
    (enough : (view.mentionable roots).length < done.length + turns) :
    view.growWithin depth turns growth = some (view.completed growth) := by
  induction turns generalizing done growth with
  | zero => exact absurd underway.length_le (Nat.not_le.2 enough)
  | succ turns ih =>
    have continues := underway.continues deep
    rw [HostView.growWithin]
    cases leads : view.turn depth growth with
    | ended graph =>
      rw [leads] at continues
      exact congrArg some continues.symm
    | refused error =>
      rw [leads] at continues
      exact congrArg some continues.symm
    | onwards later =>
      rw [leads] at continues
      obtain ⟨same, name, -, further⟩ := continues
      rw [same]
      exact ih further (by rw [List.length_append, List.length_singleton]; omega)
    | lost =>
      rw [leads] at continues
      exact continues.elim

/-- No name is taken that was taken before. -/
theorem Underway.nodup_taken (deep : view.callDepth ≤ depth) (turns : Nat)
    (underway : Underway view roots done growth) :
    (done ++ view.taken depth turns growth).Nodup := by
  induction turns generalizing done growth with
  | zero =>
    have distinct := underway.distinct
    rw [underway.queued] at distinct
    rw [HostView.taken, List.append_nil]
    exact (List.nodup_append.1 distinct).1
  | succ turns ih =>
    have continues := underway.continues deep
    have begun : (done ++ growth.work.queue.head?.toList).Nodup := by
      have distinct := underway.distinct
      rw [underway.queued] at distinct
      refine distinct.sublist ((?_ : List.Sublist _ _).append_left done)
      cases growth.work.queue <;> simp
    rw [HostView.taken]
    cases leads : view.turn depth growth with
    | onwards later =>
      rw [leads] at continues
      obtain ⟨-, name, first, further⟩ := continues
      rw [first]
      simpa using ih further
    | ended | refused | lost => simpa using begun

theorem leaves_filter (view : HostView) (busy : List String) :
    view.Leaves busy (view.model.names.filter (· ∉ busy)) where
  distinct := view.model.distinct.filter _
  mem_iff := by simp +contextual

/-- Resolution comes to an end for every model, every allow-list and all roots.

The calls that resolving a signature makes are well founded.  With calls nested as deep as the rank
of a call, and with any types in the set, the call is not lost: it makes and queues what resolving
its signature on its own does, and leaves the set as it was.

With calls nested as deep as the model needs, and one turn more than there are names that can come
into the queue, a closure is complete: a graph or an error.  However many turns it is given, it
takes no name from the queue twice. -/
theorem resolution_returns (view : HostView) (roots : List String) :
    WellFounded view.Calls ∧
      (∀ call depth, view.rank call ≤ depth → ∀ path work, work.busy = call.busy →
        ((view.resolveWithin depth call.placed.scope path call.placed.signature).run work).run =
          some ((view.resolve (view.model.names.filter (· ∉ call.busy)) call.placed.scope path
            call.placed.signature).queuing work)) ∧
      ∀ depth, view.callDepth ≤ depth →
        (∀ turns, (view.mentionable roots).length < turns →
          view.closureWithin depth turns roots = some (view.closure roots)) ∧
        ∀ turns, (view.taken depth turns (.start roots)).Nodup := by
  refine ⟨view.wellFounded_calls, ?_, fun depth deep => ⟨?_, ?_⟩⟩
  · intro call depth enough path work same
    exact answers_of_rank_le enough path _ (view.leaves_filter call.busy) work same
  · intro turns enough
    refine (Underway.start.growWithin_eq deep (by simpa using enough)).trans (congrArg some ?_)
    rw [completed, Growth.work_start]
    rfl
  · intro turns
    simpa using Underway.start.nodup_taken deep turns

/-- Two types bounded by each other, one of them also by itself, that are supertypes of each other,
and a type inside of one of them. -/
def mutualBounds : HostView where
  model := {
    types := [
      { Snapshot.plainType with
        name := "A"
        generics := [⟨"T", some (.named "A" []), none⟩, ⟨"U", some (.named "B" []), none⟩]
        supertypes := [.named "B" []]
        nested := [{ Snapshot.plainType with name := "A$I" }] },
      { Snapshot.plainType with
        name := "B"
        generics := [⟨"V", some (.named "A" []), none⟩]
        supertypes := [.named "A" []] },
      { Snapshot.plainType with name := "A$I", supertypes := [.named "A" []] }]
    distinct := by decide }
  allow := ⟨[]⟩

/-- Four nested calls and six turns complete the closure of the three types. -/
theorem mutualBounds_returns :
    mutualBounds.callDepth = 4 ∧ (mutualBounds.mentionable ["A"]).length = 5 ∧
      ∃ graph, mutualBounds.closureWithin 4 6 ["A"] = some (.ok graph) ∧
        mutualBounds.closure ["A"] = .ok graph ∧ graph.names = ["A", "B", "A$I"] ∧
        (∀ turns, (mutualBounds.taken 4 turns (.start ["A"])).Nodup) ∧
        WellFounded mutualBounds.Calls ∧
        ∀ path work, work.busy = ["A"] →
          ((mutualBounds.resolveWithin 4 [] path (.named "B" [])).run work).run =
            some ((mutualBounds.resolve ["B", "A$I"] [] path (.named "B" [])).queuing work) := by
  have depth : mutualBounds.callDepth = 4 := by decide
  have names : (mutualBounds.mentionable ["A"]).length = 5 := by decide
  obtain ⟨wellFounded, calls, closes⟩ := resolution_returns mutualBounds ["A"]
  obtain ⟨complete, distinct⟩ := closes 4 (Nat.le_of_eq depth)
  have evaluated : (mutualBounds.closure ["A"]).toOption.map (·.names) =
      some ["A", "B", "A$I"] := by
    cbv
  obtain ⟨graph, closed, same⟩ := Option.map_eq_some_iff.1 evaluated
  rw [Outcome.toOption_eq_some_iff] at closed
  have completed := (complete 6 (by omega)).trans (congrArg some closed)
  refine ⟨depth, names, graph, completed, closed, same, distinct, wellFounded, ?_⟩
  intro path work busy
  exact calls ⟨["A"], [], .named "B" []⟩ 4 (by decide) path work busy

end HostView

end TypeBridge
