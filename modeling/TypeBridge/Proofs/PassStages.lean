import TypeBridge.Pass.Pass
import TypeBridge.Proofs.ClosureReachability
import TypeBridge.Proofs.Outcomes

/-!
# What the phases of a pass leave

A phase that succeeds adds its finding to the state.  So a pass that succeeds has the closure of its
candidates and the emission order of that closure.
-/

namespace TypeBridge

open Outcome

/-- The part of a model that a configuration allows to be declared. -/
abbrev Config.viewOf (config : Config) (model : HostModel) : HostView :=
  ⟨model, config.allow⟩

/-- The declaration roots of a model. -/
abbrev Config.rootsOf (config : Config) (model : HostModel) : List String :=
  (Discovery.scan config model).candidates.declarations

/-- A declaration root may be declared. -/
theorem Discovery.admits_of_mem_rootsOf {config : Config} {model : HostModel} {root : String}
    (found : root ∈ config.rootsOf model) : (config.viewOf model).Admits root := by
  obtain ⟨type, candidate, rfl⟩ := List.mem_map.1 found
  obtain ⟨admitted, -⟩ := List.mem_filter.1 candidate
  obtain ⟨marked, unobstructed⟩ := List.mem_filter.1 admitted
  have known : type ∈ model.types := (List.mem_filter.1 marked).1
  refine ⟨type, HostModel.get?_eq_some_iff.2 ⟨known, rfl⟩, ?_⟩
  unfold obstacle? at unobstructed
  split at unobstructed
  · cases unobstructed
  split at unobstructed
  · cases unobstructed
  · next visible allowed => exact ⟨by simpa using allowed, by simpa using visible⟩

namespace Session

variable {session next : Session}

theorem candidates_eq_ok_iff {candidates : Candidates} :
    session.candidates = .ok candidates ↔ session.candidates? = some candidates := by
  unfold Session.candidates
  cases session.candidates? <;> simp

theorem graph_eq_ok_iff {graph : TypeGraph} :
    session.graph = .ok graph ↔ session.graph? = some graph := by
  unfold Session.graph
  cases session.graph? <;> simp

theorem order_eq_ok_iff {order : EmissionOrder} :
    session.order = .ok order ↔ session.order? = some order := by
  unfold Session.order
  cases session.order? <;> simp

theorem resolve_eq_ok_iff :
    session.resolve = .ok next ↔
      ∃ candidates graph, session.candidates? = some candidates ∧
        (session.config.viewOf session.model).closure candidates.declarations = .ok graph ∧
          next = { session with graph? := some graph } := by
  simp only [resolve, bind_eq_ok_iff, candidates_eq_ok_iff, mapError_eq_ok_iff, pure, Except.pure,
    Except.ok.injEq]
  constructor
  · rintro ⟨candidates, known, graph, resolved, rfl⟩
    exact ⟨candidates, graph, known, resolved, rfl⟩
  · rintro ⟨candidates, graph, known, resolved, rfl⟩
    exact ⟨candidates, known, graph, resolved, rfl⟩

theorem arrange_eq_ok_iff :
    session.arrange = .ok next ↔
      ∃ graph order, session.graph? = some graph ∧ graph.emissionOrder = .ok order ∧
        next = { session with order? := some order } := by
  simp only [arrange, bind_eq_ok_iff, graph_eq_ok_iff, mapError_eq_ok_iff, pure, Except.pure,
    Except.ok.injEq]
  constructor
  · rintro ⟨graph, known, order, ordered, rfl⟩
    exact ⟨graph, order, known, ordered, rfl⟩
  · rintro ⟨graph, order, known, ordered, rfl⟩
    exact ⟨graph, known, order, ordered, rfl⟩

/-- An extraction puts the recipes that it yields in place of those before. -/
theorem extract_eq_ok_iff {rules : List RecipeRule} :
    session.extract rules = .ok next ↔
      ∃ graph candidates, session.graph? = some graph ∧ session.candidates? = some candidates ∧
        next = { session with
          recipes := (Extraction.ofNames ⟨session.model, graph⟩ rules candidates.recipes).recipes
          diagnostics := session.diagnostics ++
            (Extraction.ofNames ⟨session.model, graph⟩ rules candidates.recipes).diagnostics } := by
  simp only [extract, bind_eq_ok_iff, graph_eq_ok_iff, candidates_eq_ok_iff, pure, Except.pure,
    Except.ok.injEq]
  constructor
  · rintro ⟨graph, known, candidates, found, rfl⟩
    exact ⟨graph, candidates, known, found, rfl⟩
  · rintro ⟨graph, candidates, known, found, rfl⟩
    exact ⟨graph, known, candidates, found, rfl⟩

/-- Discovering and resolving leave the closure of the declaration roots. -/
theorem resolve_discover_eq_ok_iff {config : Config} {model : HostModel} :
    (start config model).discover.resolve = .ok next ↔
      ∃ graph, (config.viewOf model).closure (config.rootsOf model) = .ok graph ∧
        next = { (start config model).discover with graph? := some graph } := by
  rw [resolve_eq_ok_iff]
  constructor
  · rintro ⟨candidates, graph, known, resolved, rfl⟩
    cases known
    exact ⟨graph, resolved, rfl⟩
  · rintro ⟨graph, resolved, rfl⟩
    exact ⟨_, graph, rfl, resolved, rfl⟩

end Session

namespace Pass

/-- A run of phases succeeds when its first phase does and the others do from there. -/
theorem outcome_run_cons_eq_ok_iff {session final : Session} {phase : Phase}
    {rest : List Phase} :
    (run session (phase :: rest)).outcome = .ok final ↔
      ∃ next, session.run phase = .ok next ∧ (run next rest).outcome = .ok final := by
  rw [run]
  cases session.run phase <;> simp

/-- The recipes that a pass extracts once it has resolved a type graph. -/
def extraction (config : Config) (model : HostModel) (graph : TypeGraph) : Extraction :=
  .ofNames ⟨model, graph⟩ RecipeRule.all (Discovery.scan config model).candidates.recipes

/-- A pass succeeds when the closure of its roots is resolved and arranged; everything else that it
leaves follows from these. -/
theorem outcome_eq_ok_iff {config : Config} {model : HostModel} {session : Session} :
    (ofModel config model).outcome = .ok session ↔
      ∃ graph order, (config.viewOf model).closure (config.rootsOf model) = .ok graph ∧
        graph.emissionOrder = .ok order ∧
        session = {
          config, model
          candidates? := some (Discovery.scan config model).candidates
          graph? := some graph
          order? := some order
          recipes := (extraction config model graph).recipes
          diagnostics := (Discovery.scan config model).diagnostics ++
            (extraction config model graph).diagnostics } := by
  simp only [ofModel, Phase.all, outcome_run_cons_eq_ok_iff]
  constructor
  · rintro ⟨first, discovered, second, resolved, third, arranged, fourth, extracted, last⟩
    cases discovered
    obtain ⟨graph, closed, rfl⟩ := Session.resolve_discover_eq_ok_iff.1 resolved
    obtain ⟨graph', order, known, ordered, rfl⟩ := Session.arrange_eq_ok_iff.1 arranged
    cases known
    obtain ⟨graph', candidates, known, found, rfl⟩ := Session.extract_eq_ok_iff.1 extracted
    cases known
    cases found
    cases last
    exact ⟨graph, order, closed, ordered, rfl⟩
  · rintro ⟨graph, order, closed, ordered, rfl⟩
    exact ⟨_, rfl, _, Session.resolve_discover_eq_ok_iff.2 ⟨graph, closed, rfl⟩,
      _, Session.arrange_eq_ok_iff.2 ⟨graph, order, rfl, ordered, rfl⟩,
      _, Session.extract_eq_ok_iff.2 ⟨graph, _, rfl, rfl, rfl⟩, rfl⟩

/-- A pass that succeeds has resolved the closure of its roots and arranged it. -/
theorem outcome_eq_ok {config : Config} {model : HostModel} {session : Session}
    (succeeds : (ofModel config model).outcome = .ok session) :
    ∃ graph order, (config.viewOf model).closure (config.rootsOf model) = .ok graph ∧
      graph.emissionOrder = .ok order ∧ session.config = config ∧
        session.graph? = some graph ∧ session.order? = some order := by
  obtain ⟨graph, order, closed, ordered, rfl⟩ := outcome_eq_ok_iff.1 succeeds
  exact ⟨graph, order, closed, ordered, rfl, rfl, rfl⟩

end Pass

end TypeBridge
