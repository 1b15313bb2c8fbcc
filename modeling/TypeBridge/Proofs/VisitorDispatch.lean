import TypeBridge.Proofs.ClosureWellFormed
import TypeBridge.Proofs.SchemaCompleteness

/-!
# The subtypes that visitors are dispatched to

A host model has the supertypes that its types declare, a closure those that reading keeps: a
supertype that may not be declared is left out, and with it everything above.  So the subtypes of a
visited type are the types with a chain of supertypes that are all kept.
-/

namespace TypeBridge

open Relation Outcome

theorem Builtin.name?_apply (builtin : Builtin) (args : List ResolvedType) :
    (builtin.apply args).name? = none := by
  cases builtin <;> rfl

theorem ResolvedType.mem_names_of_name? {type : ResolvedType} {name : String}
    (named : type.name? = some name) : name ∈ type.names := by
  cases type <;> simp_all [name?, names]

namespace HostView

variable {view : HostView} {scope : List String} {name other : String}

/-- A signature refers to a type that may be declared, and not to a type variable or to a built-in
type. -/
def Refers (view : HostView) (placed : Placed) (name : String) : Prop :=
  (∃ args, placed.signature = .named name args ∧ (args = [] → name ∉ placed.scope)) ∧
    Builtin.ofName? name = none ∧ view.Admits name

theorem refers_named_iff {args : List Signature} :
    view.Refers ⟨scope, .named name args⟩ other ↔
      name = other ∧ (args = [] → name ∉ scope) ∧ Builtin.ofName? name = none ∧
        view.Admits name := by
  constructor
  · rintro ⟨⟨args, same, free⟩, foreign, admits⟩
    cases same
    exact ⟨rfl, free, foreign, admits⟩
  · rintro ⟨rfl, free, foreign, admits⟩
    exact ⟨⟨args, rfl, free⟩, foreign, admits⟩

/-- Among resolved signatures, those that refer to a type have its name at the head. -/
theorem Resolves.name?_eq_some_iff {busy mentioned after : List String} {placed : List Placed}
    {types : List ResolvedType} (resolves : view.Resolves busy placed types mentioned after) :
    List.Forall₂ (fun placed type => ∀ name, type.name? = some name ↔ view.Refers placed name)
      placed types := by
  have nameless : ∀ {placed : Placed} {type : ResolvedType}, type.name? = none →
      (∀ name, ¬ view.Refers placed name) →
      ∀ name, type.name? = some name ↔ view.Refers placed name := by
    intro placed type none unused name
    simp [none, unused name]
  have unnamed : ∀ {scope : List String} {signature : Signature}, signature.head? = none →
      ∀ name, ¬ view.Refers ⟨scope, signature⟩ name := by
    rintro scope signature headless name ⟨⟨args, rfl, -⟩, -⟩
    cases headless
  have reference : ∀ {scope : List String} {name : String} {args : List Signature}
      {inner : List ResolvedType}, (args = [] → name ∉ scope) → Builtin.ofName? name = none →
      view.Admits name →
      ∀ other, (ResolvedType.named name inner).name? = some other ↔
        view.Refers ⟨scope, .named name args⟩ other := by
    intro scope name args inner free foreign admits other
    rw [refers_named_iff, ResolvedType.name?, Option.some.injEq]
    exact ⟨fun same => ⟨same, free, foreign, admits⟩, And.left⟩
  induction resolves with
  | nil => exact .nil
  | anything _ ih => exact .cons (nameless rfl (unnamed rfl)) ih
  | anyBelow _ ih | anyAbove _ ih | array _ ih =>
    cases ih with
    | cons _ others => exact .cons (nameless rfl (unnamed rfl)) others
  | var inScope _ ih =>
    refine .cons (nameless rfl fun other refers => ?_) ih
    exact (refers_named_iff.1 refers).2.1 rfl inScope
  | builtin _ known _ _ _ ih =>
    refine .cons (nameless (Builtin.name?_apply _ _) fun other refers => ?_) ih
    rw [(refers_named_iff.1 refers).2.2.1] at known
    cases known
  | hidden _ _ excluded _ _ ih =>
    refine .cons (nameless rfl fun other refers => ?_) ih
    have admits := isSome_admitted?_iff.2 (refers_named_iff.1 refers).2.2.2
    rw [excluded] at admits
    cases admits
  | applied foreign admitted given _ _ _ _ ih =>
    exact .cons (reference (fun none => absurd none given) foreign (admits_of_admitted? admitted))
      ih
  | raw free foreign admitted _ _ _ _ ih =>
    exact .cons (reference (fun _ => free) foreign (admits_of_admitted? admitted)) ih
  | again free foreign admitted _ _ ih =>
    exact .cons (reference (fun _ => free) foreign (admits_of_admitted? admitted)) ih

/-- Reading a type keeps one of its declared supertypes: a type that may be declared, and not a type
variable or a built-in type. -/
def KeepsSupertype (view : HostView) (sub super : String) : Prop :=
  ∃ type, view.model.get? sub = some type ∧
    ∃ signature ∈ type.supertypes, view.Refers ⟨view.varsIn type.name type.generics, signature⟩ super

theorem KeepsSupertype.toExtends {sub super : String} (keeps : view.KeepsSupertype sub super) :
    view.model.Extends sub super := by
  obtain ⟨type, found, signature, declared, ⟨args, rfl, -⟩, -⟩ := keeps
  exact HostModel.extends_iff.2 ⟨type, found, args, declared⟩

theorem isAssignable_of_keepsSupertype {sub super : String}
    (path : ReflTransGen view.KeepsSupertype sub super) :
    view.model.isAssignable sub super = true :=
  HostModel.isAssignable_iff.2
    (ReflTransGen.mono (fun _ _ keeps => keeps.toExtends) sub super path)

theorem ReadsNode.mem_supertypeNames_iff {type : HostType} {node : Node} {mentioned : List String}
    {parts : Parts} (reads : view.ReadsNode type node mentioned parts) {super : String} :
    super ∈ node.supertypeNames ↔ ∃ signature ∈ type.supertypes,
      view.Refers ⟨view.varsIn type.name type.generics, signature⟩ super := by
  have paired := List.forall₂_map_left_iff.1 reads.supertypes.name?_eq_some_iff
  rw [Node.supertypeNames, reads.kept, List.mem_filterMap]
  constructor
  · rintro ⟨supertype, kept, named⟩
    obtain ⟨signature, declared, same⟩ :=
      exists_of_forall₂ paired (List.mem_filter.1 kept).1
    exact ⟨signature, declared, (same super).1 named⟩
  · rintro ⟨signature, declared, refers⟩
    obtain ⟨supertype, resolved, same⟩ := exists_of_forall₂ paired.flip declared
    have named := (same super).2 refers
    exact ⟨supertype, List.mem_filter.2 ⟨resolved, by rw [named]; rfl⟩, named⟩

section

variable {roots : List String} {graph : TypeGraph} {sub super : String}
variable (closure : IsClosure view roots graph)
include closure

theorem IsClosure.extends_iff :
    graph.Extends sub super ↔ sub ∈ graph.names ∧ view.KeepsSupertype sub super := by
  rw [TypeGraph.extends_iff]
  constructor
  · rintro ⟨node, known, rfl, listed⟩
    obtain ⟨type, _, _, found, -, reads⟩ := closure.exists_reading known
    exact ⟨List.mem_map_of_mem known, type, found, reads.mem_supertypeNames_iff.1 listed⟩
  · rintro ⟨known, type, found, kept⟩
    obtain ⟨node, inGraph, rfl⟩ := List.mem_map.1 known
    obtain ⟨type', _, _, found', -, reads⟩ := closure.exists_reading inGraph
    obtain rfl := Option.some.inj (found.symm.trans found')
    exact ⟨node, inGraph, rfl, reads.mem_supertypeNames_iff.2 kept⟩

theorem IsClosure.mem_of_extends (above : graph.Extends sub super) : super ∈ graph.names := by
  obtain ⟨node, known, -, listed⟩ := TypeGraph.extends_iff.1 above
  obtain ⟨supertype, direct, named⟩ := List.mem_filterMap.1 listed
  have mention : super ∈ node.types.flatMap (·.names) :=
    List.mem_flatMap.2 ⟨supertype, by simp [Node.types, direct],
      ResolvedType.mem_names_of_name? named⟩
  exact closure.mem_of_named known (List.mem_append_left _ mention)

/-- In a closure supertypes lead from a type to another one exactly when kept supertypes do. -/
theorem IsClosure.inherits_iff (known : sub ∈ graph.names) :
    graph.Inherits sub super ↔ ReflTransGen view.KeepsSupertype sub super := by
  constructor
  · exact ReflTransGen.mono (fun _ _ above => (closure.extends_iff.1 above).2) sub super
  · intro path
    induction path using ReflTransGen.head_induction_on with
    | refl => exact .refl
    | head kept _ ih =>
      have above := closure.extends_iff.2 ⟨known, kept⟩
      exact .head above (ih (closure.mem_of_extends above))

/-- Where every supertype on the way to a type is kept, the closure has all its subtypes. -/
theorem IsClosure.inherits_iff_isAssignable (known : sub ∈ graph.names)
    (kept : ∀ middle super', view.model.isAssignable sub middle = true →
      view.model.Extends middle super' → view.model.isAssignable super' super = true →
        view.KeepsSupertype middle super') :
    graph.Inherits sub super ↔ view.model.isAssignable sub super = true := by
  rw [closure.inherits_iff known]
  refine ⟨isAssignable_of_keepsSupertype, fun assignable => ?_⟩
  have path := HostModel.isAssignable_iff.1 assignable
  simp only [HostModel.isAssignable_iff] at kept
  -- the way so far is remembered, since `kept` asks for it
  suffices whole : ∀ middle, ReflTransGen view.model.Extends middle super →
      ReflTransGen view.model.Extends sub middle →
        ReflTransGen view.KeepsSupertype middle super from whole sub path .refl
  intro middle onwards
  induction onwards using ReflTransGen.head_induction_on with
  | refl => exact fun _ => .refl
  | head declares further ih =>
    intro before
    exact .head (kept _ _ before declares further) (ih (before.tail declares))

end

end HostView

/-- A recipe visits a type.  One of its subtypes extends it directly, another one through a type
that is private. -/
def maskedModel : HostModel where
  types := [
    { Snapshot.plainType with name := "A" },
    { Snapshot.plainType with
      name := "Mid", visibility := .private, supertypes := [.named "A" []] },
    { Snapshot.plainType with name := "B", supertypes := [.named "Mid" []] },
    { Snapshot.plainType with name := "C", supertypes := [.named "A" []] },
    pruning]
  distinct := by decide

theorem maskedModel_pass :
    ∃ session graph, (Pass.ofModel visitingConfig maskedModel).outcome = .ok session ∧
      session.graph? = some graph ∧ graph.names = ["A", "B", "C"] ∧
      ∃ recipe ∈ session.recipes, recipe.visitor = some ⟨"A", ["C"]⟩ := by
  have evaluated : subtypeTable visitingConfig maskedModel "A" =
      some (["A", "B", "C"], ["C"]) := by cbv
  obtain ⟨session, graph, succeeds, resolved, -, names, subtypes, recipes⟩ :=
    exists_of_subtypeTable evaluated
  have candidates :
      (Discovery.scan visitingConfig maskedModel).candidates.recipes = ["R"] := by cbv
  have visited : graph.contains "A" = true :=
    TypeGraph.contains_iff.2 (names ▸ List.mem_cons_self)
  have yielded := pruning_extracted candidates rfl visited
  rw [← recipes] at yielded
  exact ⟨session, graph, succeeds, resolved, names, _, yielded, by rw [subtypes]⟩

/-- In a pass that succeeds, the subtypes recorded for a visitor are the other types of the closure
from which kept supertypes lead to the target.  All of them are assignable to the target in the
model; they are all such types of the closure where no supertype on the way is left out. -/
theorem visitor_subtypes_iff {config : Config} {model : HostModel} {session : Session}
    (succeeds : (Pass.ofModel config model).outcome = .ok session) :
    ∃ graph, session.graph? = some graph ∧
      ∀ recipe ∈ session.recipes, ∀ visitor, recipe.visitor = some visitor →
        ∀ name ∈ graph.names, name ≠ visitor.target →
          (name ∈ visitor.subtypes ↔
            ReflTransGen (config.viewOf model).KeepsSupertype name visitor.target) ∧
          (name ∈ visitor.subtypes → model.isAssignable name visitor.target = true) ∧
          ((∀ sub super, model.isAssignable name sub = true → model.Extends sub super →
              model.isAssignable super visitor.target = true →
                (config.viewOf model).KeepsSupertype sub super) →
            (name ∈ visitor.subtypes ↔ model.isAssignable name visitor.target = true)) := by
  obtain ⟨graph, order, closed, -, rfl⟩ := Pass.outcome_eq_ok_iff.1 succeeds
  have closure := HostView.isClosure_of_closure closed
  refine ⟨graph, rfl, fun recipe yielded visitor visits name known differs => ?_⟩
  have complete := (Pass.isComplete_of_mem_recipes yielded).visitor visitor visits
  have recorded : name ∈ visitor.subtypes ↔ graph.Inherits name visitor.target := by
    rw [complete.mem_subtypes_iff]
    exact ⟨fun member => member.2.2, fun inherits => ⟨known, differs, inherits⟩⟩
  rw [recorded]
  refine ⟨closure.inherits_iff known, fun inherits => ?_,
    closure.inherits_iff_isAssignable known⟩
  exact HostView.isAssignable_of_keepsSupertype ((closure.inherits_iff known).1 inherits)

theorem maskedModel_visited :
    ∃ session graph, (Pass.ofModel visitingConfig maskedModel).outcome = .ok session ∧
      session.graph? = some graph ∧ graph.names = ["A", "B", "C"] ∧
      (∃ recipe ∈ session.recipes, recipe.visitor = some ⟨"A", ["C"]⟩) ∧
      ∀ name ∈ ["B", "C"], name ∈ ["C"] ↔
        ReflTransGen (visitingConfig.viewOf maskedModel).KeepsSupertype name "A" := by
  obtain ⟨session, graph, succeeds, resolved, names, recipe, yielded, visits⟩ := maskedModel_pass
  obtain ⟨graph', resolved', each⟩ := visitor_subtypes_iff succeeds
  obtain rfl := Option.some.inj (resolved.symm.trans resolved')
  refine ⟨session, graph, succeeds, resolved, names, ⟨recipe, yielded, visits⟩, ?_⟩
  intro name member
  have known : name ∈ graph.names := names ▸ List.mem_cons_of_mem _ member
  have differs : name ≠ "A" := by
    rintro rfl
    simp at member
  exact (each recipe yielded _ visits name known differs).1

/-- The subtype behind the private type is a root of the closure, since the model knows that it is
assignable to the visited type; but no dispatch to it is recorded. -/
theorem maskedModel_not_visited :
    ∃ session graph recipe visitor,
      (Pass.ofModel visitingConfig maskedModel).outcome = .ok session ∧
      session.graph? = some graph ∧ recipe ∈ session.recipes ∧ recipe.visitor = some visitor ∧
      "B" ∈ graph.names ∧ "B" ≠ visitor.target ∧
      maskedModel.isAssignable "B" visitor.target = true ∧ "B" ∉ visitor.subtypes := by
  obtain ⟨session, graph, succeeds, resolved, names, recipe, yielded, visits⟩ := maskedModel_pass
  have assignable : maskedModel.isAssignable "B" "A" = true := by cbv
  exact ⟨session, graph, recipe, _, succeeds, resolved, yielded, visits, by simp [names],
    by decide, assignable, by decide⟩

end TypeBridge
