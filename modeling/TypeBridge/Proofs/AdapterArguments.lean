import TypeBridge.Proofs.AdapterReferences
import TypeBridge.Proofs.BracketedTexts
import TypeBridge.Proofs.Discriminants

/-!
# Type arguments in adapters

An adapter writes every host type without arguments, and arguments that were given in the host model
are lost.  So it gives a type as many arguments as the declaration of the type has parameters exactly
when there are none.
-/

namespace TypeBridge

namespace Script

theorem angled_eq_empty_iff {args : List String} : angled args = "" ↔ args = [] := by
  cases args with
  | nil => simp [angled]
  | cons arg rest => simp [angled, String.ext_iff]

/-- The type parameters that a statement declares. -/
def Statement.typeParameters : Statement → List String
  | interface heading _ _ | typeAlias heading _ | intersection heading _ _ => heading.generics
  | const .. | function .. | raw _ => []

end Script

theorem Shape.length_typeParameters_statement (shape : Shape) (name : String)
    (doc : Option String) :
    (shape.statement name doc).typeParameters.length = shape.parameters.length := by
  cases shape with
  | constants values => rfl
  | union generics variants =>
    simp [statement, Script.Statement.unionOf, Script.Statement.typeParameters, parameters]
  | object generics intersected parents entries =>
    unfold statement
    dsimp only
    split <;> simp [Script.Statement.typeParameters, parameters]

namespace TypeGraph

variable {graph : TypeGraph}

theorem length_parameters_draw (graph : TypeGraph) (config : EmitConfig) (node : Node) :
    (graph.draw config node).1.parameters.length =
      if node.isEnum then 0 else node.generics.length := by
  unfold draw
  split
  · rfl
  · split
    · simp [Shape.parameters, typeParameters]
    · obtain ⟨members, parents, -, -, drawn⟩ := graph.drawObject_eq config node
      simp [drawn, Shape.parameters, typeParameters]

/-- How many type parameters the declaration of a type has. -/
def parameterCount? (graph : TypeGraph) (config : EmitConfig) (name : String) : Option Nat :=
  (graph.get? name).map fun node => (graph.statement config node).typeParameters.length

theorem parameterCount?_eq_some_iff {config : EmitConfig} {node : Node} (known : node ∈ graph.nodes)
    {count : Nat} :
    graph.parameterCount? config node.name = some count ↔
      (if node.isEnum then 0 else node.generics.length) = count := by
  rw [parameterCount?, get?_eq_some_iff.2 ⟨known, rfl⟩, Option.map_some, Option.some.injEq, statement,
    Shape.length_typeParameters_statement, length_parameters_draw]

end TypeGraph

namespace HostModel

/-- A type of the model that is declared without type parameters. -/
def IsPlain (model : HostModel) (name : String) : Prop :=
  ∃ type, model.get? name = some type ∧ (type.kind = .enum ∨ type.generics = [])

end HostModel

theorem HostView.IsClosure.parameterCount?_eq_zero_iff {view : HostView} {roots : List String}
    {graph : TypeGraph} (closure : IsClosure view roots graph) (config : EmitConfig) {name : String}
    (known : name ∈ graph.names) :
    graph.parameterCount? config name = some 0 ↔ view.model.IsPlain name := by
  obtain ⟨node, inGraph, rfl⟩ := List.mem_map.1 known
  obtain ⟨type, _, _, found, -, reads⟩ := closure.exists_reading inGraph
  have generics : node.generics.length = type.generics.length := by
    simpa using congrArg List.length reads.generics
  have enum : node.isEnum = true ↔ type.kind = .enum := by
    rw [Node.isEnum, beq_iff_eq, ← reads.kind]
  rw [TypeGraph.parameterCount?_eq_some_iff inGraph, generics]
  have plain : view.model.IsPlain node.name ↔ type.kind = .enum ∨ type.generics = [] := by
    constructor
    · rintro ⟨type', found', either⟩
      obtain rfl := Option.some.inj (found.symm.trans found')
      exact either
    · exact fun either => ⟨type, found, either⟩
  rw [plain, ← enum, ← List.length_eq_zero_iff]
  by_cases isEnum : node.isEnum = true <;> simp [isEnum]

namespace Adapter

variable {write : String → Option String}

/-- A host type is written with some arguments. -/
def applied (arguments : String → List String) (name : String) : Option String :=
  some (Name.spelled name ++ Script.angled (arguments name))

theorem applied_eq_spelled_iff {arguments : String → List String} {name : String} :
    applied arguments name = some (Name.spelled name) ↔ arguments name = [] := by
  rw [applied, Option.some.injEq, String.append_eq_left_iff, Script.angled_eq_empty_iff]

def optionMemberOf (option : OptionSchema) (type : String) : Script.DocumentedMember where
  doc := (optionMember option).doc
  content := .property false option.name (!option.required)
    (if option.required then type else type ++ " | null")

theorem optionMember_eq (option : OptionSchema) :
    optionMember option = optionMemberOf option option.type.text := by
  unfold optionMemberOf optionMember
  cases option.required <;> rfl

/-- The property of an option with host types written by some function. -/
def optionMemberBy? (write : String → Option String) (option : OptionSchema) :
    Option Script.DocumentedMember :=
  (option.type.textBy? write).map (optionMemberOf option)

/-- The type of a callback for the visited type, which is written by some function. -/
def visitAliasBy? (write : String → Option String) (names : AdapterNames)
    (visitor : VisitorSchema) : Option Script.Statement :=
  (write visitor.target).map fun target =>
    .typeAlias ⟨names.visit, none, []⟩ ("VisitCallback<" ++ target ++ ">")

theorem optionMemberBy?_eq_some {option : OptionSchema}
    (named : ∀ host ∈ option.type.hosts, write host = some (Name.spelled host)) :
    optionMemberBy? write option = some (optionMember option) := by
  rw [optionMemberBy?, OptionType.textBy?_eq_some named, Option.map_some, optionMember_eq]

theorem visitAliasBy?_eq_head? {names : AdapterNames} {visitor : VisitorSchema}
    (named : write visitor.target = some (Name.spelled visitor.target)) :
    visitAliasBy? write names visitor = (visitorStatements names visitor).head? := by
  rw [visitAliasBy?, named, Option.map_some, visitorStatements, List.head?_cons]

theorem optionMemberOf_inj {option : OptionSchema} {first second : String} :
    optionMemberOf option first = optionMemberOf option second ↔ first = second := by
  unfold optionMemberOf
  cases option.required <;> simp

end Adapter

/-- The text of an option type has no arguments: written with some, it is the same only if there are
none. -/
theorem OptionType.arguments_eq_nil {arguments : String → List String} {type : OptionType}
    (same : type.textBy? (Adapter.applied arguments) = some type.text) :
    ∀ host ∈ type.hosts, arguments host = [] := by
  induction type with
  | host name =>
    intro host member
    obtain rfl := List.mem_singleton.1 member
    exact Adapter.applied_eq_spelled_iff.1 same
  | list element ih =>
    obtain ⟨inner, written, equal⟩ := Option.map_eq_some_iff.1 same
    rw [text, Script.arrayOf_inj] at equal
    exact ih (written.trans (congrArg some equal))
  | string | number | boolean | enum => simp [hosts]

/-- The property of an option gives every host type as many arguments as it has parameters. -/
def OptionSchema.IsApplied (count? : String → Option Nat) (option : OptionSchema) : Prop :=
  ∃ arguments, (∀ host ∈ option.type.hosts, count? host = some (arguments host).length) ∧
    Adapter.optionMemberBy? (Adapter.applied arguments) option = some (Adapter.optionMember option)

/-- The type of a callback gives the visited type as many arguments as it has parameters. -/
def VisitorSchema.IsApplied (count? : String → Option Nat) (names : AdapterNames)
    (visitor : VisitorSchema) : Prop :=
  ∃ arguments, count? visitor.target = some (arguments visitor.target).length ∧
    Adapter.visitAliasBy? (Adapter.applied arguments) names visitor =
      (Adapter.visitorStatements names visitor).head?

variable {count? : String → Option Nat}

theorem OptionSchema.isApplied_iff {option : OptionSchema} :
    option.IsApplied count? ↔ ∀ host ∈ option.type.hosts, count? host = some 0 := by
  constructor
  · rintro ⟨arguments, counted, same⟩ host member
    obtain ⟨written, text, property⟩ := Option.map_eq_some_iff.1 same
    rw [Adapter.optionMember_eq, Adapter.optionMemberOf_inj] at property
    have none := OptionType.arguments_eq_nil (text.trans (congrArg some property)) host member
    rw [counted host member, none]
    rfl
  · intro bare
    refine ⟨fun _ => [], bare, Adapter.optionMemberBy?_eq_some fun _ _ => ?_⟩
    exact Adapter.applied_eq_spelled_iff.2 rfl

theorem VisitorSchema.isApplied_iff {names : AdapterNames} {visitor : VisitorSchema} :
    visitor.IsApplied count? names ↔ count? visitor.target = some 0 := by
  constructor
  · rintro ⟨arguments, counted, same⟩
    have target : Name.spelled visitor.target ++ Script.angled (arguments visitor.target) =
        Name.spelled visitor.target := by
      simpa [Adapter.visitAliasBy?, Adapter.applied, Adapter.visitorStatements] using same
    have none := Adapter.applied_eq_spelled_iff.1 (congrArg some target)
    rw [counted, none]
    rfl
  · intro bare
    exact ⟨fun _ => [], bare, Adapter.visitAliasBy?_eq_head? (Adapter.applied_eq_spelled_iff.2 rfl)⟩

/-- In a pass and a rendering that succeed, every type has its declaration, and every adapter is
written for a recipe.  The property of an option and the type of the callback give a host type as
many arguments as its declaration has type parameters exactly when it is an enumeration or has no
type parameters in the model. -/
theorem adapters_applied_iff {config : Config} {model : HostModel} {session : Session}
    {rendering : Rendering} (succeeds : (Pass.ofModel config model).outcome = .ok session)
    (rendered : Rendering.ofSession session = .ok rendering) :
    ∃ graph, (config.viewOf model).closure (config.rootsOf model) = .ok graph ∧
      (∀ node ∈ graph.nodes, ∃ declaration ∈ rendering.declarations.declarations,
        declaration.qualified = node.name ∧ declaration.text = graph.text config.emit node) ∧
      ∀ adapter ∈ rendering.adapters.units, ∃ recipe ∈ session.recipes,
        adapter.recipe = recipe.name ∧
        adapter.source = (Adapter.sourceFile
          (Adapter.declarationModule config.declarations config.adapters) recipe).text .script ∧
        (∀ option ∈ recipe.options, option.IsApplied (graph.parameterCount? config.emit) ↔
          ∀ host ∈ option.type.hosts, model.IsPlain host) ∧
        ∀ visitor, recipe.visitor = some visitor →
          (visitor.IsApplied (graph.parameterCount? config.emit) (.ofName recipe.name) ↔
            model.IsPlain visitor.target) := by
  obtain ⟨graph, order, closed, ordered, declared, written⟩ :=
    Rendering.exists_recipe_of_mem succeeds rendered
  have closure := HostView.isClosure_of_closure closed
  refine ⟨graph, closed, fun node known => TypeGraph.exists_text ordered declared known, ?_⟩
  intro adapter member
  obtain ⟨recipe, listed, complete, sameName, source⟩ := written adapter member
  refine ⟨recipe, listed, sameName, source, fun option taken => ?_, fun visitor visits => ?_⟩
  · rw [OptionSchema.isApplied_iff]
    refine forall₂_congr fun host inside => ?_
    exact closure.parameterCount?_eq_zero_iff _ ((complete.options option taken).hosted host inside)
  · rw [VisitorSchema.isApplied_iff]
    exact closure.parameterCount?_eq_zero_iff _ (complete.visitor visitor visits).known

theorem collectingModel_applied :
    ∃ session rendering graph,
      (Pass.ofModel visitingConfig (collectingModel [] [])).outcome = .ok session ∧
      Rendering.ofSession session = .ok rendering ∧
      (visitingConfig.viewOf (collectingModel [] [])).closure
        (visitingConfig.rootsOf (collectingModel [] [])) = .ok graph ∧
      ∃ adapter ∈ rendering.adapters.units, ∃ recipe ∈ session.recipes,
        adapter.recipe = recipe.name ∧ recipe.hostTypes = ["A$I", "A"] ∧
        (∀ option ∈ recipe.options,
          option.IsApplied (graph.parameterCount? visitingConfig.emit)) ∧
        ∀ visitor, recipe.visitor = some visitor →
          visitor.IsApplied (graph.parameterCount? visitingConfig.emit) (.ofName recipe.name) := by
  have evaluated : (declaredGraph? visitingConfig (collectingModel [] [])).map
      (fun (graph, _) => graph.names) = some ["A", "A$I"] := by
    cbv
  obtain ⟨⟨graph, unit⟩, known, names⟩ := Option.map_eq_some_iff.1 evaluated
  have candidates :
      (Discovery.scan visitingConfig (collectingModel [] [])).candidates.recipes = ["R"] := by
    cbv
  obtain ⟨session, rendering, adapter, succeeds, rendered, -, -, recipes, written⟩ :=
    collecting_rendered candidates known names
  obtain ⟨graph', closed, -, each⟩ := adapters_applied_iff succeeds rendered
  obtain ⟨recipe, listed, sameName, -, options, visitors⟩ := each adapter written
  obtain rfl := List.mem_singleton.1 (recipes ▸ listed)
  have plain : ∀ name ∈ ["A$I", "A"], (collectingModel [] []).IsPlain name := by
    intro name member
    rcases List.mem_cons.1 member with rfl | later
    · exact ⟨_, rfl, .inr rfl⟩
    · obtain rfl := List.mem_singleton.1 later
      exact ⟨_, rfl, .inr rfl⟩
  refine ⟨session, rendering, graph', succeeds, rendered, closed, adapter, written, _, listed,
    sameName, rfl, fun option taken => ?_, fun visitor visits => ?_⟩
  · refine (options option taken).2 fun host inside => plain host ?_
    obtain rfl := List.mem_singleton.1 taken
    exact List.mem_append_left _ inside
  · refine (visitors visitor visits).2 (plain _ ?_)
    cases visits
    exact List.mem_cons_of_mem _ List.mem_cons_self

/-- The type inside has a type parameter, and the option gives it an argument. -/
def appliedModel : HostModel :=
  collectingModel [⟨"T", none, none⟩] [.named "String" []]

/-- The argument of the option is lost: the adapter gives none to a declaration with a type
parameter. -/
theorem appliedModel_not_applied :
    ∃ session rendering graph, (Pass.ofModel visitingConfig appliedModel).outcome = .ok session ∧
      Rendering.ofSession session = .ok rendering ∧
      (visitingConfig.viewOf appliedModel).closure (visitingConfig.rootsOf appliedModel) =
        .ok graph ∧
      graph.parameterCount? visitingConfig.emit "A$I" = some 1 ∧
      ∃ adapter ∈ rendering.adapters.units, ∃ recipe ∈ session.recipes,
        adapter.source = (Adapter.sourceFile "../types" recipe).text .script ∧
        ∃ option ∈ recipe.options, option.type.hosts = ["A$I"] ∧ option.type.text = "A.I[]" ∧
          ¬ option.IsApplied (graph.parameterCount? visitingConfig.emit) := by
  have evaluated : (declaredGraph? visitingConfig appliedModel).map
      (fun (graph, _) => (graph.names, graph.parameterCount? visitingConfig.emit "A$I")) =
        some (["A", "A$I"], some 1) := by
    cbv
  obtain ⟨⟨graph, unit⟩, known, same⟩ := Option.map_eq_some_iff.1 evaluated
  obtain ⟨names, count⟩ := Prod.mk.inj same
  have candidates : (Discovery.scan visitingConfig appliedModel).candidates.recipes = ["R"] := by
    cbv
  obtain ⟨session, rendering, adapter, succeeds, rendered, -, closed, recipes, written⟩ :=
    collecting_rendered candidates known names
  obtain ⟨_, _, -, -, -, each⟩ := Rendering.exists_recipe_of_mem succeeds rendered
  obtain ⟨recipe, listed, -, -, source⟩ := each adapter written
  obtain rfl := List.mem_singleton.1 (recipes ▸ listed)
  refine ⟨session, rendering, graph, succeeds, rendered, closed, count, adapter, written, _,
    listed, source, _, List.mem_cons_self, rfl, rfl, fun isApplied => ?_⟩
  have bare := OptionSchema.isApplied_iff.1 isApplied "A$I" List.mem_cons_self
  rw [count] at bare
  cases bare

end TypeBridge
