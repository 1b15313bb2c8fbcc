import TypeBridge.Closure.Reading
import TypeBridge.Graph.TypeGraph

/-!
# The type closure

Everything that some roots need, breadth first.  Each type of the model is read at most once, in
the order of its first mention.
-/

namespace TypeBridge

namespace HostView

/-- Names of a list that are in the model and not queued yet, each once. -/
def unqueued (view : HostView) (queued names : List String) : List String :=
  names.eraseDups.filter fun name => name ∈ view.model.names && name ∉ queued

theorem unseen_append_lt {α : Type} [DecidableEq α] {inside seen more : List α} {a : α}
    (known : a ∈ inside) (fresh : a ∉ seen) (added : a ∈ more) :
    Search.unseen inside (seen ++ more) < Search.unseen inside seen := by
  have fewer : Search.unseen inside (seen ++ more) ≤ Search.unseen inside (a :: seen) :=
    List.countP_mono_left fun b _ unseen => by
      simp only [decide_eq_true_eq, List.mem_append, List.mem_cons, not_or] at *
      exact ⟨fun same => unseen.2 (same ▸ added), unseen.1⟩
  have := Search.unseen_cons_lt known fresh
  omega

/-- Read the queued types and everything they mention. -/
def grow (view : HostView) (graph : TypeGraph) (queued : List String) :
    List String → Except PassError TypeGraph
  | [] => .ok graph
  | name :: rest =>
    match view.model.get? name with
    | none => grow view graph queued rest
    | some type =>
      match view.node type with
      | .error error => .error error
      | .ok (node, mentioned) =>
        let fresh := view.unqueued queued mentioned
        grow view (graph.insert node) (queued ++ fresh) (rest ++ fresh)
termination_by queue => (Search.unseen view.model.names queued, queue.length)
decreasing_by
  · exact Prod.Lex.right _ (by simp)
  · change Prod.Lex _ _ (Search.unseen view.model.names (queued ++ fresh), (rest ++ fresh).length) _
    by_cases none : fresh = []
    · rw [none, List.append_nil, List.append_nil]
      exact Prod.Lex.right _ (by simp)
    · obtain ⟨name, first⟩ := List.exists_mem_of_ne_nil _ none
      have inModel := (List.mem_filter.1 first).2
      simp only [Bool.and_eq_true, decide_eq_true_eq] at inModel
      exact Prod.Lex.left _ _ (unseen_append_lt inModel.1 inModel.2 first)

/-- The closure of some roots.  Roots outside the model are passed over. -/
def closure (view : HostView) (roots : List String) : Except PassError TypeGraph :=
  view.grow .empty roots.eraseDups roots.eraseDups

end HostView

end TypeBridge
