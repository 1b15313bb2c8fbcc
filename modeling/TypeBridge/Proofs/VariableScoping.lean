import TypeBridge.Proofs.Discriminants
import TypeBridge.Proofs.InheritedVariables

/-!
# Which type variables a declaration leaves unbound

A host type sees the type parameters of the types around it, while its declaration has only its own
ones: a namespace has none.  So a declaration binds every type variable that it spells, except those
of a type around it, and of a type around one whose members are put into it.
-/

namespace TypeBridge

namespace Spelling

mutual

def vars : Spelling → List String
  | var name => [name]
  | declared _ args => varsOfAll args
  | array element | set element | nullable element => element.vars
  | map key value => key.vars ++ value.vars
  | primitive _ | unknown => []

def varsOfAll : List Spelling → List String
  | [] => []
  | spelling :: rest => spelling.vars ++ varsOfAll rest

end

end Spelling

/-- A type variable as a declaration spells it, and the type parameters of the method around it. -/
structure VariableUse where
  name : String
  methodParameters : List String
  deriving DecidableEq

def VariableUse.IsBound (use : VariableUse) (parameters : List String) : Prop :=
  use.name ∈ use.methodParameters ∨ use.name ∈ parameters

def TypeParameter.vars (parameters : List TypeParameter) : List String :=
  (parameters.filterMap (·.bound)).flatMap (·.vars)

def Entry.uses : Entry → List VariableUse
  | .discriminant _ _ => []
  | .property _ type _ _ => type.vars.map (⟨·, []⟩)
  | .method _ generics parameters result _ _ =>
    (result.vars ++ TypeParameter.vars generics ++ parameters.flatMap (·.2.vars)).map
      (⟨·, generics.map (·.name)⟩)

def Shape.uses : Shape → List VariableUse
  | constants _ => []
  | union generics variants =>
    (TypeParameter.vars generics ++ variants.flatMap (·.vars)).map (⟨·, []⟩)
  | object generics _ parents entries =>
    (TypeParameter.vars generics).map (⟨·, []⟩) ++ entries.flatMap (·.uses) ++
      (parents.flatMap (·.vars)).map (⟨·, []⟩)

variable {declared : String → Prop}

namespace ResolvedType

mutual

theorem vars_spell_subset : ∀ type : ResolvedType, ∀ name ∈ type.spell.vars, name ∈ type.vars
  | named _ args => varsOfAll_spellAll_subset args
  | var _ => fun _ => id
  | array element | set element | optional element => vars_spell_subset element
  | map key value => by
    simp only [spell, Spelling.vars, vars, List.mem_append]
    exact fun name => Or.imp (vars_spell_subset key name) (vars_spell_subset value name)
  | anyBelow bound => vars_spell_subset bound
  | primitive _ | anything | unknown | anyAbove _ => by simp [spell, Spelling.vars]

theorem varsOfAll_spellAll_subset : ∀ types : List ResolvedType,
    ∀ name ∈ Spelling.varsOfAll (spellAll types), name ∈ varsOfAll types
  | [] => by simp [spellAll, Spelling.varsOfAll]
  | type :: rest => by
    simp only [spellAll, Spelling.varsOfAll, varsOfAll, List.mem_append]
    exact fun name => Or.imp (vars_spell_subset type name) (varsOfAll_spellAll_subset rest name)

end

theorem VarsIn.spell {type : ResolvedType} (varsIn : type.VarsIn declared) :
    ∀ name ∈ type.spell.vars, declared name :=
  fun name member => varsIn name (vars_spell_subset type name member)

end ResolvedType

theorem vars_orNothing (isNullable : Bool) (spelling : Spelling) :
    (spelling.orNothing isNullable).vars = spelling.vars := by
  cases isNullable <;> rfl

theorem map_name_typeParameters (keepVariance : Bool) (generics : List Generic) :
    (typeParameters keepVariance generics).map (·.name) = generics.map (·.name) := by
  simp [typeParameters]

theorem varsIn_typeParameters {keepVariance : Bool} {generics : List Generic}
    (varsIn : ∀ type ∈ generics.filterMap (·.bound), type.VarsIn declared) :
    ∀ name ∈ TypeParameter.vars (typeParameters keepVariance generics), declared name := by
  intro name member
  simp only [TypeParameter.vars, typeParameters, List.mem_flatMap, List.mem_filterMap,
    List.mem_map] at member
  obtain ⟨spelling, ⟨_, ⟨generic, known, rfl⟩, bounded⟩, named⟩ := member
  obtain ⟨type, bound, rfl⟩ := Option.map_eq_some_iff.1 bounded
  exact (varsIn type (List.mem_filterMap.2 ⟨generic, known, bound⟩)).spell name named

theorem Member.VarsIn.entry {member : Member} (varsIn : member.VarsIn declared) :
    ∀ use ∈ member.entry.uses, use.name ∈ use.methodParameters ∨ declared use.name := by
  unfold Member.entry
  cases kind : member.kind with
  | field =>
    simp only [Member.VarsIn, Member.types, Member.Binds, kind, List.forall_mem_singleton,
      false_or] at varsIn
    simp only [Entry.uses, vars_orNothing, List.forall_mem_map]
    exact fun name spelled => .inr (varsIn.spell name spelled)
  | method parameters generics =>
    simp only [Member.VarsIn, Member.types, Member.Binds, kind, List.cons_append,
      List.forall_mem_cons, List.forall_mem_append] at varsIn
    obtain ⟨result, others, bounds⟩ := varsIn
    simp only [Entry.uses, vars_orNothing, map_name_typeParameters, List.flatMap_map,
      List.forall_mem_map, List.mem_append]
    rintro name ((ofResult | ofBounds) | ofParameters)
    · exact result.spell name ofResult
    · exact varsIn_typeParameters bounds name ofBounds
    · obtain ⟨parameter, known, named⟩ := List.mem_flatMap.1 ofParameters
      exact (others _ (List.mem_map_of_mem known)).spell name named

namespace TypeGraph

variable {graph : TypeGraph} {config : EmitConfig} {model : HostModel} {node : Node}

theorem varsIn_variantReference (closed : Node) (variant : String) :
    (graph.variantReference closed variant).VarsIn (· ∈ closed.generics.map (·.name)) := by
  unfold variantReference
  split
  · simp [ResolvedType.VarsIn, ResolvedType.vars, ResolvedType.varsOfAll]
  · refine ResolvedType.varsIn_named_iff.2 fun arg member => ?_
    obtain ⟨generic, -, rfl⟩ := List.mem_map.1 member
    split
    · next received found =>
      obtain ⟨index, -, passed⟩ := Option.bind_eq_some_iff.1 found
      have known : received ∈ closed.generics := List.mem_of_getElem? passed
      simpa [ResolvedType.VarsIn, ResolvedType.vars] using ⟨received, known, rfl⟩
    · simp [ResolvedType.VarsIn, ResolvedType.vars]

/-- The members of a type go into a declaration: it is the declared one, or one that the declared
one inherits from while inherited members are written out. -/
def GoesInto (graph : TypeGraph) (config : EmitConfig) (node : Node) (origin : String) : Prop :=
  origin = node.name ∨
    (config.supertypes = .flattened ∨ graph.ExtendsClosed node) ∧ graph.Inherits node.name origin

/-- A type parameter of a declaration, or of a type around one whose members go into it. -/
def Declares (graph : TypeGraph) (config : EmitConfig) (model : HostModel) (node : Node)
    (name : String) : Prop :=
  name ∈ node.generics.map (·.name) ∨
    ∃ origin, graph.GoesInto config node origin ∧ model.BindsAround origin name

theorem declares_of_binds {name : String} (binds : node.Binds model name) :
    graph.Declares config model node name :=
  binds.imp_right fun around => ⟨node.name, .inl rfl, around⟩

theorem isBound_or_of_declares {use : VariableUse}
    (within : use.name ∈ use.methodParameters ∨ graph.Declares config model node use.name) :
    use.IsBound (node.generics.map (·.name)) ∨
      ∃ origin, graph.GoesInto config node origin ∧ model.BindsAround origin use.name := by
  rcases within with ofMethod | own | outer
  · exact .inl (.inl ofMethod)
  · exact .inl (.inr own)
  · exact .inr outer

section

variable (wellFormed : ∀ node ∈ graph.nodes, node.WellFormed graph.arity? model)
  (known : node ∈ graph.nodes)
include wellFormed known

theorem varsIn_sourceMembers (config : EmitConfig) :
    (graph.sourceMembers config.supertypes node).Each
      (Member.VarsIn (graph.Declares config model node)) := by
  by_cases inlined : config.supertypes = .flattened ∨ graph.ExtendsClosed node
  · have climbed := (climb_varsIn wellFormed node).sourceMembers (isAbove_self known)
      config.supertypes
    refine climbed.imp fun member varsIn => varsIn.mono fun name => Or.imp_right ?_
    rintro ⟨origin, inherits, around⟩
    exact ⟨origin, .inr ⟨inlined, inherits⟩, around⟩
  · rw [not_or, ← isVariant_iff] at inlined
    rw [sourceMembers, if_neg inlined.1, if_neg inlined.2]
    intro contribution member
    obtain ⟨own, listed, rfl⟩ := List.mem_map.1 member
    intro type mentioned
    have formed := (wellFormed node known).members own listed type mentioned
    exact formed.varsIn.mono fun name => Or.imp_right declares_of_binds

/-- Whatever is spelled in a declaration is bound there, or is a type parameter of a type around one
whose members go into it. -/
theorem isBound_or_of_draw :
    ∀ use ∈ (graph.draw config node).1.uses, use.IsBound (graph.draw config node).1.parameters ∨
      ∃ origin, graph.GoesInto config node origin ∧ model.BindsAround origin use.name := by
  obtain ⟨supertypes, bounds, -⟩ := wellFormed node known
  have ofBounds : ∀ type ∈ node.generics.filterMap (·.bound),
      type.VarsIn (graph.Declares config model node) :=
    fun type listed => (bounds type listed).varsIn.mono fun _ => declares_of_binds
  have ofSupertypes : ∀ type ∈ node.supertypes,
      type.VarsIn (graph.Declares config model node) :=
    fun type listed => (supertypes type listed).2.varsIn.mono fun _ => declares_of_binds
  unfold draw
  split
  · simp [Shape.uses]
  split
  -- a variant gets the parameters that the closed type passes on, or unknown types
  · simp only [Shape.uses, Shape.parameters, map_name_typeParameters, List.forall_mem_map,
      List.mem_append, List.flatMap_map]
    rintro name (spelled | spelled)
    · exact isBound_or_of_declares (.inr (varsIn_typeParameters ofBounds name spelled))
    · obtain ⟨variant, -, mentioned⟩ := List.mem_flatMap.1 spelled
      exact .inl (.inr ((varsIn_variantReference node variant).spell name mentioned))
  · obtain ⟨members, parents, sources, inherited, drawn⟩ := graph.drawObject_eq config node
    simp only [drawn, Shape.uses, Shape.parameters, map_name_typeParameters,
      List.forall_mem_append, List.forall_mem_map, List.flatMap_map, List.flatMap_append]
    -- bounds, the discriminant, members and supertypes
    refine ⟨⟨?_, ?_, ?_⟩, ?_⟩
    · intro name spelled
      exact isBound_or_of_declares (.inr (varsIn_typeParameters ofBounds name spelled))
    · intro use spelled
      split at spelled <;> simp [Entry.uses] at spelled
    · intro use spelled
      obtain ⟨member, kept, mentioned⟩ := List.mem_flatMap.1 spelled
      have each := varsIn_sourceMembers wellFormed known config
      exact isBound_or_of_declares ((each.of_mem (sources member kept)).entry use mentioned)
    · intro name spelled
      obtain ⟨parent, listed, mentioned⟩ := List.mem_flatMap.1 spelled
      have varsIn := ofSupertypes parent (inherited parent listed)
      exact isBound_or_of_declares (.inr (varsIn.spell name mentioned))

end

end TypeGraph

/-- The types of a pass that is rendered, each with the type parameters of its declaration and with
the type variables in it. -/
def useTable (config : Config) (model : HostModel) :
    Option (List (String × List String × List VariableUse)) :=
  (renderedGraph? config model).map fun graph => graph.nodes.map fun node =>
    let shape := (graph.draw config.emit node).1
    (node.name, shape.parameters, shape.uses)

theorem exists_of_useTable {config : Config} {model : HostModel}
    {table : List (String × List String × List VariableUse)}
    (evaluated : useTable config model = some table) :
    ∃ session rendering graph, (Pass.ofModel config model).outcome = .ok session ∧
      Rendering.ofSession session = .ok rendering ∧
      (config.viewOf model).closure (config.rootsOf model) = .ok graph ∧
      ∀ name parameters uses, (name, parameters, uses) ∈ table → ∃ node ∈ graph.nodes,
        node.name = name ∧ (graph.draw config.emit node).1.parameters = parameters ∧
          (graph.draw config.emit node).1.uses = uses := by
  obtain ⟨graph, known, same⟩ := Option.map_eq_some_iff.1 evaluated
  obtain ⟨session, rendering, succeeds, rendered, closed⟩ := exists_of_renderedGraph? known
  refine ⟨session, rendering, graph, succeeds, rendered, closed, ?_⟩
  intro name parameters uses listed
  rw [← same] at listed
  obtain ⟨node, inGraph, entry⟩ := List.mem_map.1 listed
  obtain ⟨sameName, sameRest⟩ := Prod.mk.inj entry
  exact ⟨node, inGraph, sameName, Prod.mk.inj sameRest⟩

/-- A generic type with a field of its parameter, and a type below it that renames the parameter. -/
def renamingModel : HostModel where
  types := [
    { Snapshot.plainType with
      name := "A"
      generics := [⟨"T", none, none⟩]
      members := [{ Snapshot.plainMember with name := "item", type := .named "T" [] }] },
    { Snapshot.plainType with
      name := "B"
      generics := [⟨"U", none, none⟩]
      supertypes := [.named "A" [.named "U" []]] }]
  distinct := by decide

/-- A generic type, and a type inside it with a field of its parameter. -/
def cellModel : HostModel where
  types := [
    { Snapshot.plainType with name := "Box", generics := [⟨"T", none, none⟩] },
    { Snapshot.plainType with
      name := "Box$Cell"
      members := [{ Snapshot.plainMember with name := "value", type := .named "T" [] }] }]
  distinct := by decide

/-- Declarations of a pass and a rendering that succeed bind every type variable that they spell, by
the method around it or by the declaration, apart from type parameters of types around the declared
one or around one whose members go into it. -/
theorem variables_bound_or_outer {config : Config} {model : HostModel} {session : Session}
    {rendering : Rendering} (succeeds : (Pass.ofModel config model).outcome = .ok session)
    (rendered : Rendering.ofSession session = .ok rendering) :
    ∃ graph, (config.viewOf model).closure (config.rootsOf model) = .ok graph ∧
      ∀ declaration ∈ rendering.declarations.declarations, ∃ node ∈ graph.nodes,
        declaration.qualified = node.name ∧ declaration.text = graph.text config.emit node ∧
        ∀ use ∈ (graph.draw config.emit node).1.uses,
          use.IsBound (graph.draw config.emit node).1.parameters ∨
            ∃ origin, graph.GoesInto config.emit node origin ∧
              model.BindsAround origin use.name := by
  obtain ⟨graph, order, resolved, -, declared⟩ := Rendering.exists_declareAll succeeds rendered
  have closure := HostView.isClosure_of_closure resolved
  refine ⟨graph, resolved, fun declaration written => ?_⟩
  obtain ⟨node, known, warnings, made⟩ := TypeGraph.exists_declare declared written
  obtain ⟨name, text⟩ := TypeGraph.text_of_declare made
  exact ⟨node, known, name, text,
    TypeGraph.isBound_or_of_draw (fun node => closure.node_wellFormed) known⟩

theorem renamingModel_bound :
    ∃ session rendering graph, (Pass.ofModel flattening renamingModel).outcome = .ok session ∧
      Rendering.ofSession session = .ok rendering ∧
      (flattening.viewOf renamingModel).closure (flattening.rootsOf renamingModel) = .ok graph ∧
      (∃ node ∈ graph.nodes, node.name = "B" ∧
        (graph.draw flattening.emit node).1.uses = [⟨"U", []⟩] ∧
        (graph.draw flattening.emit node).1.parameters = ["U"]) ∧
      ∀ declaration ∈ rendering.declarations.declarations, ∃ node ∈ graph.nodes,
        declaration.qualified = node.name ∧
        ∀ use ∈ (graph.draw flattening.emit node).1.uses,
          use.IsBound (graph.draw flattening.emit node).1.parameters ∨
            ∃ origin, graph.GoesInto flattening.emit node origin ∧
              renamingModel.BindsAround origin use.name := by
  have evaluated : useTable flattening renamingModel =
      some [("B", ["U"], [⟨"U", []⟩]), ("A", ["T"], [⟨"T", []⟩])] := by
    cbv
  obtain ⟨session, rendering, graph, succeeds, rendered, closed, entries⟩ :=
    exists_of_useTable evaluated
  obtain ⟨graph', closed', bound⟩ := variables_bound_or_outer succeeds rendered
  obtain rfl : graph = graph' := Except.ok.inj (closed.symm.trans closed')
  obtain ⟨node, known, name, parameters, uses⟩ := entries "B" _ _ List.mem_cons_self
  refine ⟨session, rendering, graph, succeeds, rendered, closed,
    ⟨node, known, name, uses, parameters⟩, fun declaration written => ?_⟩
  obtain ⟨node', known', name', -, each⟩ := bound declaration written
  exact ⟨node', known', name', each⟩

/-- The inner type is declared without type parameters, with a field of the outer one. -/
theorem cellModel_unbound :
    ∃ session rendering graph,
      (Pass.ofModel { Config.plain with roots := ["Box$Cell"] } cellModel).outcome = .ok session ∧
      Rendering.ofSession session = .ok rendering ∧
      (Config.viewOf { Config.plain with roots := ["Box$Cell"] } cellModel).closure
        (Config.rootsOf { Config.plain with roots := ["Box$Cell"] } cellModel) = .ok graph ∧
      ∃ node ∈ graph.nodes, node.name = "Box$Cell" ∧
        ∃ use ∈ (graph.draw Config.plainEmit node).1.uses,
          ¬use.IsBound (graph.draw Config.plainEmit node).1.parameters := by
  have evaluated : useTable { Config.plain with roots := ["Box$Cell"] } cellModel =
      some [("Box$Cell", [], [⟨"T", []⟩]), ("Box", ["T"], [])] := by
    cbv
  obtain ⟨session, rendering, graph, succeeds, rendered, closed, entries⟩ :=
    exists_of_useTable evaluated
  obtain ⟨node, known, name, parameters, uses⟩ := entries "Box$Cell" _ _ List.mem_cons_self
  change (graph.draw Config.plainEmit node).1.parameters = [] at parameters
  change (graph.draw Config.plainEmit node).1.uses = [⟨"T", []⟩] at uses
  refine ⟨session, rendering, graph, succeeds, rendered, closed, node, known, name, ⟨"T", []⟩, ?_⟩
  rw [uses, parameters]
  simp [VariableUse.IsBound]

end TypeBridge
