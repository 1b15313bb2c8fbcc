import TypeBridge.Proofs.ClosureReachability
import TypeBridge.Proofs.MentionedTypes
import TypeBridge.Proofs.Outcomes

/-!
# Reading is independent of history

Two closures have the same node for a type that both have, apart from its number.  The set of types
whose bounds are being resolved is shared by all that is read, but whatever was read before, the set
is empty again when the next signature is resolved.
-/

namespace TypeBridge

namespace HostView

/-- The signatures of some types of the model, one type after another. -/
def signaturesOf (view : HostView) (names : List String) : List Placed :=
  (names.filterMap view.model.get?).flatMap view.placed

variable {view : HostView} {roots others : List String} {graph other : TypeGraph}

theorem IsRead.unique {node twin : Node} (read : view.IsRead node) (read' : view.IsRead twin)
    (same : node.name = twin.name) : { node with index := twin.index } = twin := by
  obtain ⟨type, mentioned, found, reading⟩ := read
  obtain ⟨type', mentioned', found', reading'⟩ := read'
  rw [same] at found
  obtain rfl := Option.some.inj (found.symm.trans found')
  obtain ⟨unnumbered, -⟩ := Reading.result_inj.1 (reading.symm.trans reading')
  have numbered := congrArg (fun n : Node => { n with index := twin.index }) unnumbered
  exact numbered

theorem exists_resolves_signaturesOf {nodes : List Node}
    (read : ∀ node ∈ nodes, view.IsRead node) :
    ∃ types mentioned, view.Resolves [] (view.signaturesOf (nodes.map (·.name))) types mentioned
      [] := by
  induction nodes with
  | nil => exact ⟨[], [], .nil⟩
  | cons node rest ih =>
    obtain ⟨type, mentioned, found, reading⟩ := read node List.mem_cons_self
    obtain ⟨parts, reads⟩ := view.node_reading type _ mentioned reading
    obtain ⟨types, first⟩ := reads.resolves
    obtain ⟨further, met, later⟩ := ih fun node member => read node (List.mem_cons_of_mem _ member)
    refine ⟨types ++ further, parts.met ++ met, ?_⟩
    rw [signaturesOf, List.map_cons, List.filterMap_cons_some found, List.flatMap_cons]
    exact first.append later

/-- From whatever set a run leaves, a signature is resolved as it is on its own. -/
theorem Resolves.resolves_iff {past : List Placed} {types : List ResolvedType}
    {mentioned busy : List String} (before : view.Resolves [] past types mentioned busy)
    {scope : List String} {path : String} {signature : Signature} {type : ResolvedType}
    {met after : List String} :
    view.Resolves busy [⟨scope, signature⟩] [type] met after ↔
      after = [] ∧ view.type scope path signature = Reading.result type met := by
  obtain rfl := before.after_eq
  constructor
  · intro resolves
    obtain rfl := resolves.after_eq
    exact ⟨rfl, type_eq_result_iff.2 resolves⟩
  · rintro ⟨rfl, reads⟩
    exact type_eq_result_iff.1 reads

/-- Closures of any two lists of roots agree on the nodes of the types that both have.  All their
types are read in one run over the shared set, and behind any part of that run a signature is
resolved as it is on its own. -/
theorem closure_independent (closed : view.closure roots = .ok graph)
    (closed' : view.closure others = .ok other) :
    (∀ node ∈ graph.nodes, ∀ twin ∈ other.nodes, node.name = twin.name →
      { node with index := twin.index } = twin) ∧
    ∀ earlier, earlier <+: graph.names →
      (∃ types mentioned busy,
        view.Resolves [] (view.signaturesOf earlier) types mentioned busy) ∧
      ∀ types mentioned busy, view.Resolves [] (view.signaturesOf earlier) types mentioned busy →
        ∀ scope path signature type met after,
          view.Resolves busy [⟨scope, signature⟩] [type] met after ↔
            after = [] ∧ view.type scope path signature = Reading.result type met := by
  have closure := isClosure_of_closure closed
  have closure' := isClosure_of_closure closed'
  constructor
  · intro node known twin known'
    exact (closure.read node known).unique (closure'.read twin known')
  · intro earlier initial
    constructor
    · rw [List.prefix_iff_eq_take.1 initial, TypeGraph.names, ← List.map_take]
      have read : ∀ node ∈ graph.nodes.take earlier.length, view.IsRead node :=
        fun node member => closure.read node (List.mem_of_mem_take member)
      obtain ⟨types, mentioned, resolves⟩ := exists_resolves_signaturesOf read
      exact ⟨types, mentioned, [], resolves⟩
    · intro types mentioned busy before _ _ _ _ _ _
      exact before.resolves_iff

/-- A type bounded by itself, and a type below it that gives no arguments. -/
def boundedModel : HostModel where
  types := [
    { Snapshot.plainType with name := "A", supertypes := [.named "B" []] },
    { Snapshot.plainType with name := "B", generics := [⟨"T", some (.named "B" []), none⟩] }]
  distinct := by decide

/-- The arguments of the supertype are the same, whichever of the two types is read first. -/
theorem boundedModel_independent :
    ∃ graph other, (HostView.mk boundedModel ⟨[]⟩).closure ["A"] = .ok graph ∧
      (HostView.mk boundedModel ⟨[]⟩).closure ["B", "A"] = .ok other ∧
      graph.names = ["A", "B"] ∧ other.names = ["B", "A"] ∧
      (∀ node ∈ graph.nodes, ∀ twin ∈ other.nodes, node.name = twin.name →
        { node with index := twin.index } = twin) ∧
      ∀ earlier, earlier <+: graph.names →
        (∃ types mentioned busy, (HostView.mk boundedModel ⟨[]⟩).Resolves []
          ((HostView.mk boundedModel ⟨[]⟩).signaturesOf earlier) types mentioned busy) ∧
        ∀ types mentioned busy, (HostView.mk boundedModel ⟨[]⟩).Resolves []
            ((HostView.mk boundedModel ⟨[]⟩).signaturesOf earlier) types mentioned busy →
          ∀ scope path signature type met after,
            (HostView.mk boundedModel ⟨[]⟩).Resolves busy [⟨scope, signature⟩] [type] met after ↔
              after = [] ∧ (HostView.mk boundedModel ⟨[]⟩).type scope path signature =
                Reading.result type met := by
  have first : ((HostView.mk boundedModel ⟨[]⟩).closure ["A"]).toOption.map (·.names) =
      some ["A", "B"] := by
    cbv
  have second : ((HostView.mk boundedModel ⟨[]⟩).closure ["B", "A"]).toOption.map (·.names) =
      some ["B", "A"] := by
    cbv
  obtain ⟨graph, closed, names⟩ := Option.map_eq_some_iff.1 first
  obtain ⟨other, closed', names'⟩ := Option.map_eq_some_iff.1 second
  rw [Outcome.toOption_eq_some_iff] at closed closed'
  exact ⟨graph, other, closed, closed', names, names', closure_independent closed closed'⟩

end HostView

end TypeBridge
