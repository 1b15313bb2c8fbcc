import Mathlib.Data.List.Induction
import TypeBridge.Pass.Step
import TypeBridge.Proofs.PassStages

/-!
# What steps leave in any order

However the phases follow one another, repeated or failing, what a state holds fits together: the
graph is the closure of the candidates, the order is that of the graph, and the recipes are those of
the last extraction that succeeded.
-/

namespace TypeBridge

open Outcome

namespace SessionTask

variable {α β : Type} {session : Session}

theorem run_bind (first : SessionTask α) (next : α → SessionTask β) :
    (first >>= next).run.run session =
      match first.run.run session with
      | (.ok a, after) => (next a).run.run after
      | (.error failure, after) => (.error failure, after) := by
  rw [ExceptT.run_bind, StateT.run_bind]
  rcases first.run.run session with ⟨_ | a, after⟩ <;> rfl

theorem run_ask (find : Session → Except PassFailure α) :
    (ask find).run.run session = (find session, session) :=
  rfl

theorem run_modify (change : Session → Session) :
    (modify change : SessionTask Unit).run.run session = (.ok (), change session) :=
  rfl

theorem run_get : (get : SessionTask Session).run.run session = (.ok session, session) :=
  rfl

/-- What a task comes to when the state changes at its end or not at all. -/
def settled (session : Session) : Except PassFailure (α × Session) → Except PassFailure α × Session
  | .ok (result, next) => (.ok result, next)
  | .error failure => (.error failure, session)

theorem run_resolve :
    resolve.run.run session = settled session (session.resolve.map ((), ·)) := by
  simp only [resolve, run_bind, run_ask, run_modify, Session.resolve]
  cases session.candidates with
  | error failure => rfl
  | ok candidates =>
    simp only [bind, Except.bind]
    cases (HostView.closure ⟨session.model, session.config.allow⟩
      candidates.declarations).mapError PassFailure.fatal with
    | error failure => rfl
    | ok graph => rfl

theorem run_arrange :
    arrange.run.run session = settled session (session.arrange.map ((), ·)) := by
  simp only [arrange, run_bind, run_ask, run_modify, Session.arrange]
  cases session.graph with
  | error failure => rfl
  | ok graph =>
    simp only [bind, Except.bind]
    cases graph.emissionOrder.mapError PassFailure.fatal with
    | error failure => rfl
    | ok order => rfl

theorem run_extract (rules : List RecipeRule) :
    (extract rules).run.run session = settled session ((session.extract rules).map ((), ·)) := by
  simp only [extract, run_bind, run_ask, run_get, report, run_modify, Session.extract]
  cases session.graph with
  | error failure => rfl
  | ok graph =>
    simp only [bind, Except.bind]
    cases session.candidates with
    | error failure => rfl
    | ok candidates => rfl

end SessionTask

namespace Step

/-- What a step comes to, with the state that it leaves if it succeeds. -/
def outcome (session : Session) : Step → Except PassFailure (Option Rendering × Session)
  | discover => .ok (none, session.discover)
  | resolve => session.resolve.map (none, ·)
  | order => session.arrange.map (none, ·)
  | extract rules => (session.extract rules).map (none, ·)
  | render => (Rendering.ofSession session).map (some ·, session)

/-- No step writes to the state before the last point where it can fail. -/
theorem perform_eq (step : Step) (session : Session) :
    step.perform session = SessionTask.settled session (step.outcome session) := by
  cases step with
  | discover => rfl
  | resolve =>
    rw [perform, task, SessionTask.run_bind, SessionTask.run_resolve, outcome]
    cases session.resolve with
    | error failure => rfl
    | ok next => rfl
  | order =>
    rw [perform, task, SessionTask.run_bind, SessionTask.run_arrange, outcome]
    cases session.arrange with
    | error failure => rfl
    | ok next => rfl
  | extract rules =>
    rw [perform, task, SessionTask.run_bind, SessionTask.run_extract, outcome]
    cases session.extract rules with
    | error failure => rfl
    | ok next => rfl
  | render =>
    rw [perform, task, SessionTask.run_bind, SessionTask.run_ask, outcome]
    cases Rendering.ofSession session with
    | error failure => rfl
    | ok rendering => rfl

theorem perform_of_ok {step : Step} {session next : Session} {made : Option Rendering}
    (succeeds : step.outcome session = .ok (made, next)) :
    step.perform session = (.ok made, next) := by
  rw [perform_eq, succeeds, SessionTask.settled]

theorem perform_of_error {step : Step} {session : Session} {failure : PassFailure}
    (fails : step.outcome session = .error failure) :
    step.perform session = (.error failure, session) := by
  rw [perform_eq, fails, SessionTask.settled]

/-- A step that succeeds has done the work of its phase, or has left the state as it was. -/
theorem cases_of_outcome {step : Step} {session next : Session} {made : Option Rendering}
    (succeeds : step.outcome session = .ok (made, next)) :
    (step = discover ∧ session.discover = next) ∨
    (step = resolve ∧ session.resolve = .ok next) ∨
    (step = order ∧ session.arrange = .ok next) ∨
    (∃ rules, step = extract rules ∧ session.extract rules = .ok next) ∨
    (step = render ∧ session = next) := by
  cases step with
  | discover =>
    have same : session.discover = next := congrArg Prod.snd (Except.ok.inj succeeds)
    exact .inl ⟨rfl, same⟩
  | resolve =>
    obtain ⟨_, resolves, same⟩ := map_eq_ok_iff.1 succeeds
    cases same
    exact .inr (.inl ⟨rfl, resolves⟩)
  | order =>
    obtain ⟨_, arranges, same⟩ := map_eq_ok_iff.1 succeeds
    cases same
    exact .inr (.inr (.inl ⟨rfl, arranges⟩))
  | extract rules =>
    obtain ⟨_, extracts, same⟩ := map_eq_ok_iff.1 succeeds
    cases same
    exact .inr (.inr (.inr (.inl ⟨rules, rfl, extracts⟩)))
  | render =>
    obtain ⟨_, -, same⟩ := map_eq_ok_iff.1 succeeds
    cases same
    exact .inr (.inr (.inr (.inr ⟨rfl, rfl⟩)))

/-- The rules by which a step extracts recipes from a state, if it does. -/
def extractedBy? (step : Step) (session : Session) : Option (List RecipeRule) :=
  match (step.perform session).1 with
  | .ok _ => step.rules?
  | .error _ => none

end Step

namespace Session

variable {config : Config} {model : HostModel} {rules? : Option (List RecipeRule)}
  {session : Session}

/-- The rules of the last extraction that succeeds among some steps. -/
def lastRules? (session : Session) : List Step → Option (List RecipeRule)
  | [] => none
  | step :: rest =>
    ((step.perform session).2.lastRules? rest).or (step.extractedBy? session)

theorem through_append (session : Session) (front back : List Step) :
    session.through (front ++ back) = (session.through front).through back :=
  List.foldl_append

theorem through_singleton (session : Session) (step : Step) :
    session.through [step] = (step.perform session).2 :=
  rfl

theorem lastRules?_append_singleton (session : Session) (front : List Step) (step : Step) :
    session.lastRules? (front ++ [step]) =
      (step.extractedBy? (session.through front)).or (session.lastRules? front) := by
  induction front generalizing session with
  | nil => simp [lastRules?, through]
  | cons first rest ih =>
    have later : (session.through (first :: rest)) = (first.perform session).2.through rest := rfl
    rw [List.cons_append, lastRules?, ih, later, lastRules?, Option.or_assoc]

/-- The findings of a state belong to one model and fit together.  The recipes are those that some
rules leave over, if recipes have been extracted at all. -/
structure FitsTogether (config : Config) (model : HostModel)
    (rules? : Option (List RecipeRule)) (session : Session) : Prop where
  sameConfig : session.config = config
  sameModel : session.model = model
  candidates : session.candidates? = none ∨
    session.candidates? = some (Discovery.scan config model).candidates
  graph : session.graph? = none ∨ ∃ graph candidates, session.graph? = some graph ∧
    session.candidates? = some candidates ∧
    (config.viewOf model).closure candidates.declarations = .ok graph
  order : session.order? = none ∨ ∃ order graph, session.order? = some order ∧
    session.graph? = some graph ∧ graph.emissionOrder = .ok order
  recipes : (rules? = none ∧ session.recipes = []) ∨
    ∃ rules graph candidates, rules? = some rules ∧ session.graph? = some graph ∧
      session.candidates? = some candidates ∧
      session.recipes = (Extraction.ofNames ⟨model, graph⟩ rules candidates.recipes).recipes

namespace FitsTogether

theorem start (config : Config) (model : HostModel) :
    (Session.start config model).FitsTogether config model none :=
  ⟨rfl, rfl, .inl rfl, .inl rfl, .inl rfl, .inl ⟨rfl, rfl⟩⟩

/-- Discovery finds what it has found before. -/
theorem discover (fits : session.FitsTogether config model rules?) :
    session.discover.FitsTogether config model rules? := by
  have found : session.discover.candidates? = some (Discovery.scan config model).candidates := by
    rw [← fits.sameConfig, ← fits.sameModel]
    rfl
  have kept : ∀ candidates, session.candidates? = some candidates →
      session.discover.candidates? = some candidates := by
    intro candidates known
    rcases fits.candidates with unset | same
    · simp [unset] at known
    · rw [found, ← same, known]
  refine ⟨fits.sameConfig, fits.sameModel, .inr found, ?_, fits.order, ?_⟩
  · rcases fits.graph with unset | ⟨graph, candidates, resolved, known, closed⟩
    · exact .inl unset
    · exact .inr ⟨graph, candidates, resolved, kept candidates known, closed⟩
  · rcases fits.recipes with unset | ⟨rules, graph, candidates, last, resolved, known, extracted⟩
    · exact .inl unset
    · exact .inr ⟨rules, graph, candidates, last, resolved, kept candidates known, extracted⟩

/-- Resolving again gives the graph that is there. -/
theorem resolve {next : Session} (fits : session.FitsTogether config model rules?)
    (resolves : session.resolve = .ok next) : next.FitsTogether config model rules? := by
  obtain ⟨candidates, graph, known, closed, rfl⟩ := resolve_eq_ok_iff.1 resolves
  rw [fits.sameConfig, fits.sameModel] at closed
  have kept : ∀ before, session.graph? = some before → before = graph := by
    intro before resolved
    rcases fits.graph with unset | ⟨graph', candidates', resolved', known', closed'⟩
    · simp [unset] at resolved
    · have sameGraph : before = graph' := Option.some.inj (resolved.symm.trans resolved')
      have sameCandidates : candidates' = candidates := Option.some.inj (known'.symm.trans known)
      rw [sameCandidates, closed, Except.ok.injEq] at closed'
      rw [sameGraph, closed']
  refine ⟨fits.sameConfig, fits.sameModel, fits.candidates,
    .inr ⟨graph, candidates, rfl, known, closed⟩, ?_, ?_⟩
  · rcases fits.order with unset | ⟨order, before, arranged, resolved, ordered⟩
    · exact .inl unset
    · exact .inr ⟨order, graph, arranged, rfl, kept before resolved ▸ ordered⟩
  · rcases fits.recipes with unset | ⟨rules, before, candidates, last, resolved, known, extracted⟩
    · exact .inl unset
    · exact .inr ⟨rules, graph, candidates, last, rfl, known, kept before resolved ▸ extracted⟩

theorem arrange {next : Session} (fits : session.FitsTogether config model rules?)
    (arranges : session.arrange = .ok next) : next.FitsTogether config model rules? := by
  obtain ⟨graph, order, resolved, ordered, rfl⟩ := arrange_eq_ok_iff.1 arranges
  exact ⟨fits.sameConfig, fits.sameModel, fits.candidates, fits.graph,
    .inr ⟨order, graph, rfl, resolved, ordered⟩, fits.recipes⟩

theorem extract {rules : List RecipeRule} {next : Session}
    (fits : session.FitsTogether config model rules?)
    (extracts : session.extract rules = .ok next) :
    next.FitsTogether config model (some rules) := by
  obtain ⟨graph, candidates, resolved, known, rfl⟩ := extract_eq_ok_iff.1 extracts
  exact ⟨fits.sameConfig, fits.sameModel, fits.candidates, fits.graph, fits.order,
    .inr ⟨rules, graph, candidates, rfl, resolved, known, by rw [← fits.sameModel]⟩⟩

/-- What a state holds still fits together after a step. -/
theorem perform (fits : session.FitsTogether config model rules?) (step : Step) :
    (step.perform session).2.FitsTogether config model ((step.extractedBy? session).or rules?) := by
  cases came : step.outcome session with
  | error failure =>
    rw [Step.extractedBy?, Step.perform_of_error came]
    exact fits
  | ok result =>
    obtain ⟨made, next⟩ := result
    rw [Step.extractedBy?, Step.perform_of_ok came]
    rcases Step.cases_of_outcome came with ⟨rfl, rfl⟩ | ⟨rfl, resolves⟩ | ⟨rfl, arranges⟩ |
      ⟨rules, rfl, extracts⟩ | ⟨rfl, rfl⟩
    · exact fits.discover
    · exact fits.resolve resolves
    · exact fits.arrange arranges
    · exact fits.extract extracts
    · exact fits

/-- What a state holds fits together after any steps. -/
theorem through (fits : session.FitsTogether config model none) (steps : List Step) :
    (session.through steps).FitsTogether config model (session.lastRules? steps) := by
  induction steps using List.reverseRecOn with
  | nil => exact fits
  | append_singleton front step ih =>
    rw [through_append, through_singleton, lastRules?_append_singleton]
    exact ih.perform step

end FitsTogether

theorem diagnostics_perform (session : Session) (step : Step) :
    session.diagnostics <+: (step.perform session).2.diagnostics := by
  cases came : step.outcome session with
  | error failure =>
    simpa only [Step.perform_of_error came] using List.prefix_rfl
  | ok result =>
    obtain ⟨made, next⟩ := result
    rw [Step.perform_of_ok came]
    rcases Step.cases_of_outcome came with ⟨-, rfl⟩ | ⟨-, resolves⟩ | ⟨-, arranges⟩ |
      ⟨rules, -, extracts⟩ | ⟨-, rfl⟩
    · exact List.prefix_append _ _
    · obtain ⟨_, _, -, -, rfl⟩ := resolve_eq_ok_iff.1 resolves
      exact List.prefix_rfl
    · obtain ⟨_, _, -, -, rfl⟩ := arrange_eq_ok_iff.1 arranges
      exact List.prefix_rfl
    · obtain ⟨_, _, -, -, rfl⟩ := extract_eq_ok_iff.1 extracts
      exact List.prefix_append _ _
    · exact List.prefix_rfl

/-- Diagnostics are only ever appended. -/
theorem diagnostics_through (session : Session) (steps : List Step) :
    session.diagnostics <+: (session.through steps).diagnostics := by
  induction steps using List.reverseRecOn with
  | nil => exact List.prefix_rfl
  | append_singleton front step ih =>
    rw [through_append, through_singleton]
    exact ih.trans (diagnostics_perform _ step)

end Session

/-- Whatever steps have been taken from the start of a pass, what the state holds fits together,
with the recipes of the last extraction that succeeded.  Further steps only append diagnostics, and
a step that fails leaves the state as it is. -/
theorem findings_fit_together (config : Config) (model : HostModel) (steps : List Step) :
    ((Session.start config model).through steps).FitsTogether config model
        ((Session.start config model).lastRules? steps) ∧
      (∀ more, ((Session.start config model).through steps).diagnostics <+:
        ((Session.start config model).through (steps ++ more)).diagnostics) ∧
      ∀ step failure,
        (step.perform ((Session.start config model).through steps)).1 = .error failure →
        (Session.start config model).through (steps ++ [step]) =
          (Session.start config model).through steps := by
  refine ⟨(Session.FitsTogether.start config model).through steps, fun more => ?_, ?_⟩
  · rw [Session.through_append]
    exact Session.diagnostics_through _ more
  · intro step failure fails
    rw [Session.through_append, Session.through_singleton]
    cases came : step.outcome ((Session.start config model).through steps) with
    | error _ => rw [Step.perform_of_error came]
    | ok result =>
      rw [Step.perform_of_ok came] at fails
      cases fails

/-- An extraction before there is a graph fails and does not count. -/
example :
    ((Session.start Config.plain .empty).lastRules? [.extract [], .discover, .resolve,
        .extract [BuiltinRule.metadata.rule], .render, .order]).map (·.map (·.name)) =
      some ["recipe-metadata"] := by
  cbv

end TypeBridge
