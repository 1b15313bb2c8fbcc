import Mathlib
import TypeBridge.Pass.Rendering
import TypeBridge.Proofs.DeclaredTypes
import TypeBridge.Proofs.EmissionTopology
import TypeBridge.Proofs.InheritedMentions
import TypeBridge.Proofs.PassStages

/-!
# References stand no later than what they refer to

A declaration may refer to types that its node does not mention itself, through members that it
inherits.  Dependencies lead to these types as well, so they are declared in no later group.
-/

namespace TypeBridge

variable {allowed : String → Prop}

namespace ResolvedType

mutual

/-- Spelling a type names nothing new. -/
theorem names_spell_subset : ∀ type : ResolvedType, ∀ name ∈ type.spell.names, name ∈ type.names
  | named head args => by
    simp only [spell, Spelling.names, names, List.mem_cons]
    exact fun name => Or.imp_right (namesOfAll_spellAll_subset args name)
  | array element | set element | optional element => names_spell_subset element
  | map key value => by
    simp only [spell, Spelling.names, names, List.mem_append]
    exact fun name => Or.imp (names_spell_subset key name) (names_spell_subset value name)
  | anyBelow bound => names_spell_subset bound
  | primitive _ | var _ | anything | unknown => by simp [spell, Spelling.names]
  | anyAbove _ => by simp [spell, Spelling.names]

theorem namesOfAll_spellAll_subset : ∀ types : List ResolvedType,
    ∀ name ∈ Spelling.namesOfAll (spellAll types), name ∈ namesOfAll types
  | [] => by simp [spellAll, Spelling.namesOfAll]
  | type :: rest => by
    simp only [spellAll, Spelling.namesOfAll, namesOfAll, List.mem_append]
    exact fun name => Or.imp (names_spell_subset type name) (namesOfAll_spellAll_subset rest name)

end

theorem Within.spell {type : ResolvedType} (within : type.Within allowed) :
    ∀ name ∈ type.spell.names, allowed name :=
  fun name member => within name (names_spell_subset type name member)

end ResolvedType

theorem names_orNothing (isNullable : Bool) (spelling : Spelling) :
    (spelling.orNothing isNullable).names = spelling.names := by
  cases isNullable <;> rfl

theorem within_typeParameters {keepVariance : Bool} {generics : List Generic}
    (within : ∀ type ∈ generics.filterMap (·.bound), type.Within allowed) :
    ∀ name ∈ TypeParameter.names (typeParameters keepVariance generics), allowed name := by
  intro name member
  simp only [TypeParameter.names, typeParameters, List.mem_flatMap, List.mem_filterMap,
    List.mem_map] at member
  obtain ⟨spelling, ⟨_, ⟨generic, known, rfl⟩, bounded⟩, named⟩ := member
  obtain ⟨type, bound, rfl⟩ := Option.map_eq_some_iff.1 bounded
  exact (within type (List.mem_filterMap.2 ⟨generic, known, bound⟩)).spell name named

theorem Member.Within.entry {member : Member} (within : member.Within allowed) :
    ∀ name ∈ member.entry.names, allowed name := by
  unfold Member.entry
  cases kind : member.kind with
  | field =>
    simp only [Member.Within, Member.types, kind, List.forall_mem_singleton] at within
    simpa only [Entry.names, names_orNothing] using within.spell
  | method parameters generics =>
    simp only [Member.Within, Member.types, kind, List.cons_append, List.forall_mem_cons,
      List.forall_mem_append] at within
    obtain ⟨result, others, bounds⟩ := within
    simp only [Entry.names, names_orNothing, List.flatMap_map, List.mem_append]
    rintro name ((ofResult | ofBounds) | ofParameters)
    · exact result.spell name ofResult
    · exact within_typeParameters bounds name ofBounds
    · obtain ⟨parameter, known, named⟩ := List.mem_flatMap.1 ofParameters
      exact (others _ (List.mem_map_of_mem known)).spell name named

namespace TypeGraph

variable {graph : TypeGraph}

theorem mem_withoutDiscriminant {discriminant : String} {members : List Member} {member : Member}
    (kept : member ∈ (withoutDiscriminant discriminant members).1) : member ∈ members := by
  unfold withoutDiscriminant at kept
  split at kept
  · exact (List.mem_filter.1 kept).1
  · exact kept

/-- The parts of an object type: its discriminant, if it is a variant, in front of some of the
members that it starts from, and the supertypes that it refers to. -/
theorem drawObject_eq (graph : TypeGraph) (config : EmitConfig) (node : Node) :
    ∃ members : List Member, ∃ parents : List ResolvedType,
      (∀ member ∈ members, member ∈ (graph.sourceMembers config.supertypes node).members) ∧
      (∀ parent ∈ parents, parent ∈ node.supertypes) ∧
      (graph.drawObject config node).1 =
        .object (typeParameters (config.variance == .preserve) node.generics)
          (config.supertypes == .intersecting) (parents.map (·.spell))
          ((if graph.isVariant node then
              [Entry.discriminant config.discriminant (Name.spelled node.name)] else []) ++
            members.map (·.entry)) := by
  unfold drawObject
  refine ⟨_, _, ?_, ?_, rfl⟩
  · intro member kept
    have listed := (List.mem_filter.1 kept).1
    split at listed
    · exact mem_withoutDiscriminant listed
    · exact listed
  · intro parent kept
    split at kept
    · cases kept
    · exact (List.mem_filter.1 kept).1

/-- The members that a declaration starts from keep what those met on the way up keep. -/
theorem Climb.sourceMembers {graph : TypeGraph} {onWay : Node × Bindings → Prop}
    {promise : Member → Prop} (climb : graph.Climb onWay promise) {node : Node}
    (start : onWay (node, [])) (style : SupertypeStyle) :
    (graph.sourceMembers style node).Each promise := by
  unfold TypeGraph.sourceMembers
  split
  · exact climb.allMembers start
  split
  · exact climb.variantMembers start
  · intro contribution member
    obtain ⟨own, listed, rfl⟩ := List.mem_map.1 member
    exact climb.own start own listed

theorem within_variantReference {closed : Node} {variant : String} (named : allowed variant) :
    (graph.variantReference closed variant).Within allowed := by
  unfold variantReference
  split
  · exact ResolvedType.within_named_iff.2 ⟨named, by simp⟩
  · refine ResolvedType.within_named_iff.2 ⟨named, fun arg member => ?_⟩
    obtain ⟨generic, -, rfl⟩ := List.mem_map.1 member
    split <;> simp [ResolvedType.Within, ResolvedType.names]

variable (closed : graph.ClosedUnder allowed) {node : Node} (known : node ∈ graph.nodes)
  (named : allowed node.name)
include closed known named

/-- A declaration in any style refers to allowed names only. -/
theorem ClosedUnder.draw (config : EmitConfig) :
    ∀ name ∈ (graph.draw config node).1.names, allowed name := by
  obtain ⟨types, variants⟩ := closed node known named
  have bounds : ∀ type ∈ node.generics.filterMap (·.bound), type.Within allowed :=
    fun type bound => types type (List.mem_append_left _ (List.mem_append_right _ bound))
  unfold TypeGraph.draw
  split
  · simp [Shape.names]
  split
  · intro name member
    rcases List.mem_append.1 member with ofBounds | ofVariants
    · exact within_typeParameters bounds name ofBounds
    · rw [List.flatMap_map] at ofVariants
      obtain ⟨variant, listed, spelled⟩ := List.mem_flatMap.1 ofVariants
      exact (within_variantReference (variants variant listed)).spell name spelled
  · obtain ⟨members, parents, sources, supertypes, drawn⟩ := graph.drawObject_eq config node
    rw [drawn]
    intro name member
    simp only [Shape.names, List.flatMap_append, List.flatMap_map, List.mem_append] at member
    rcases member with (ofBounds | ofDiscriminant | ofMembers) | ofParents
    · exact within_typeParameters bounds name ofBounds
    · split at ofDiscriminant <;> simp [Entry.names] at ofDiscriminant
    · obtain ⟨member, kept, spelled⟩ := List.mem_flatMap.1 ofMembers
      have each := closed.climb.sourceMembers (isAllowed_of_mem known named) config.supertypes
      have within : member.Within allowed := each.of_mem (sources member kept)
      exact within.entry name spelled
    · obtain ⟨super, listed, spelled⟩ := List.mem_flatMap.1 ofParents
      have within : super.Within allowed :=
        types super (List.mem_append_left _ (List.mem_append_left _ (supertypes super listed)))
      exact within.spell name spelled

end TypeGraph

namespace TypeGraph

open Relation

variable {graph : TypeGraph} {order : EmissionOrder}

/-- Without a collision the spelled names are distinct. -/
theorem nodup_of_collision?_eq_none {earlier nodes : List Node}
    (distinct : (earlier.map fun node => Name.spelled node.name).Nodup)
    (none : collision? earlier nodes = none) :
    ((earlier ++ nodes).map fun node => Name.spelled node.name).Nodup := by
  induction nodes generalizing earlier with
  | nil => rwa [List.append_nil]
  | cons node rest ih =>
    unfold collision? at none
    split at none
    · cases none
    · next fresh =>
      have further : ((earlier ++ [node]).map fun node => Name.spelled node.name).Nodup := by
        rw [List.map_append, List.nodup_append]
        refine ⟨distinct, by simp, ?_⟩
        intro spelled known _ last same
        simp only [List.map_cons, List.map_nil, List.mem_singleton] at last
        obtain ⟨first, member, rfl⟩ := List.mem_map.1 known
        have differs := List.find?_eq_none.1 fresh first member
        exact differs (beq_iff_eq.2 (same.trans last))
      have all := ih further none
      rwa [List.append_assoc, List.singleton_append] at all

theorem mem_names_of_reaches {start name : String} (known : start ∈ graph.names)
    (reaches : graph.Reaches start name) : name ∈ graph.names := by
  induction reaches with
  | refl => exact known
  | tail _ depends _ =>
    obtain ⟨_, -, -, member⟩ := depends
    exact member

/-- In a closure the types that one type reaches mention only types that it reaches. -/
theorem closedUnder_reaches {view : HostView} {roots : List String}
    (closure : view.IsClosure roots graph) (start : String) :
    graph.ClosedUnder (graph.Reaches start) := by
  intro node known reaches
  have onward : ∀ name, (∃ type ∈ node.types, name ∈ type.names) ∨ name ∈ node.variants →
      graph.Reaches start name := by
    intro name mention
    by_cases same : name = node.name
    · rwa [same]
    · have depends := Node.mem_dependencies_iff.2 ⟨mention, same⟩
      have member := closure.mem_of_dependency known depends
      exact reaches.tail ⟨node, get?_eq_some_iff.2 ⟨known, rfl⟩, depends, member⟩
  exact ⟨fun type listed name mention => onward name (Or.inl ⟨type, listed, mention⟩),
    fun variant listed => onward variant (Or.inr listed)⟩

end TypeGraph

theorem EmissionOrder.map_snd_numbered (order : EmissionOrder) :
    order.numbered.map (·.2) = order.names := by
  simp only [numbered, names, List.map_flatMap, List.map_map, Function.comp_def, List.map_id']
  rw [List.flatMap_def, List.zipIdx_map_fst]

namespace TypeGraph

variable {graph : TypeGraph} {config : EmitConfig} {order : EmissionOrder}
  {unit : DeclarationUnit}

/-- A unit declares the names of an order one by one, as far as the graph has them. -/
theorem map_places (perm : order.names.Perm graph.names) :
    (graph.places order).map (fun (group, node) => (group, node.name)) = order.numbered := by
  have all : ∀ entry ∈ order.numbered, entry.2 ∈ graph.names := by
    intro entry member
    rw [← perm.mem_iff, ← EmissionOrder.map_snd_numbered]
    exact List.mem_map_of_mem member
  rw [places, List.map_filterMap]
  refine (List.filterMap_congr fun entry member => ?_).trans List.filterMap_some
  obtain ⟨group, name⟩ := entry
  obtain ⟨node, known, rfl⟩ := List.mem_map.1 (all _ member)
  simp [get?_eq_some_iff.2 ⟨known, rfl⟩]

theorem map_declarations (declared : graph.declareAll config order = .ok unit)
    (perm : order.names.Perm graph.names) :
    unit.declarations.map (fun declaration => (declaration.group, declaration.qualified)) =
      order.numbered := by
  rw [← map_places perm, ← List.forall₂_eq_eq_eq, List.forall₂_map_left_iff,
    List.forall₂_map_right_iff]
  apply (forall₂_isDeclared declared).flip.imp
  intro declaration place isDeclared
  exact Prod.ext isDeclared.group isDeclared.qualified

theorem name_of_mem_declarations (declared : graph.declareAll config order = .ok unit)
    {declaration : Declaration} (member : declaration ∈ unit.declarations) :
    declaration.name = Name.spelled declaration.qualified := by
  obtain ⟨place, -, isDeclared⟩ := exists_of_forall₂ (forall₂_isDeclared declared) member
  rw [isDeclared.name, isDeclared.qualified]

theorem names_of_declareAll (declared : graph.declareAll config order = .ok unit)
    (perm : order.names.Perm graph.names) : unit.names = order.names.map Name.spelled := by
  rw [DeclarationUnit.names, List.map_congr_left fun _ => name_of_mem_declarations declared,
    ← EmissionOrder.map_snd_numbered, ← map_declarations declared perm, List.map_map, List.map_map]
  rfl

/-- The spelled names of an ordered graph are distinct. -/
theorem nodup_spelled_of_ordered (ordered : graph.emissionOrder = .ok order) :
    (order.names.map Name.spelled).Nodup := by
  have distinct := nodup_of_collision?_eq_none (by simp) (emissionOrder_eq_ok_iff.1 ordered).2.1
  rw [((names_perm_of_ordered ordered).map Name.spelled).nodup_iff, names, List.map_map]
  exact distinct

/-- A reference in a declaration of a closure is the name of a declaration in no later group. -/
theorem exists_target_of_reference {view : HostView} {roots : List String}
    (closure : view.IsClosure roots graph) (ordered : graph.emissionOrder = .ok order)
    (declared : graph.declareAll config order = .ok unit) {declaration : Declaration}
    (member : declaration ∈ unit.declarations) {reference : String}
    (refers : reference ∈ declaration.references) :
    ∃ target ∈ unit.declarations, target.name = reference ∧ target.group ≤ declaration.group := by
  have paired := forall₂_isDeclared declared
  obtain ⟨⟨group, node⟩, place, isDeclared⟩ := exists_of_forall₂ paired member
  obtain ⟨numbered, known⟩ := mem_places_iff.1 place
  rw [isDeclared.references, List.mem_eraseDups] at refers
  obtain ⟨name, drawn, rfl⟩ := List.mem_map.1 refers
  have reaches : graph.Reaches node.name name :=
    (closedUnder_reaches closure node.name).draw known .refl config name drawn
  have inGraph := mem_names_of_reaches (List.mem_map_of_mem known) reaches
  obtain ⟨targetGroup, targetNumbered⟩ := exists_number_of_mem ordered inGraph
  obtain ⟨targetNode, targetKnown, rfl⟩ := List.mem_map.1 inGraph
  have targetPlace : (targetGroup, targetNode) ∈ graph.places order :=
    mem_places_iff.2 ⟨targetNumbered, targetKnown⟩
  obtain ⟨target, listed, isTarget⟩ := exists_of_forall₂ paired.flip targetPlace
  refine ⟨target, listed, isTarget.name, ?_⟩
  rw [isTarget.group, isDeclared.group]
  exact number_le_of_reaches ordered closure.numbered numbered targetNumbered reaches

end TypeGraph

/-- A state is rendered when its graph can be declared in its order; everything else follows. -/
theorem Rendering.ofSession_eq_ok_iff {session : Session} {rendering : Rendering} :
    ofSession session = .ok rendering ↔
      ∃ graph order unit, session.graph? = some graph ∧ session.order? = some order ∧
        graph.declareAll session.config.emit order = .ok unit ∧
        rendering = ⟨session.config.declarations, session.config.adapters, unit,
          .ofRecipes session.config.declarations session.config.adapters session.recipes⟩ := by
  simp only [ofSession, Outcome.bind_eq_ok_iff, Session.graph_eq_ok_iff, Session.order_eq_ok_iff,
    Outcome.mapError_eq_ok_iff, pure, Except.pure, Except.ok.injEq]
  constructor
  · rintro ⟨graph, known, order, ordered, unit, declared, rfl⟩
    exact ⟨graph, order, unit, known, ordered, declared, rfl⟩
  · rintro ⟨graph, order, unit, known, ordered, declared, rfl⟩
    exact ⟨graph, known, order, ordered, unit, declared, rfl⟩

/-- A pass and a rendering that succeed have declared the closure of the roots in its order. -/
theorem Rendering.exists_declareAll {config : Config} {model : HostModel} {session : Session}
    {rendering : Rendering} (succeeds : (Pass.ofModel config model).outcome = .ok session)
    (rendered : ofSession session = .ok rendering) :
    ∃ graph order, (config.viewOf model).closure (config.rootsOf model) = .ok graph ∧
      graph.emissionOrder = .ok order ∧
      graph.declareAll config.emit order = .ok rendering.declarations := by
  obtain ⟨graph, order, closed, ordered, sameConfig, sameGraph, sameOrder⟩ :=
    Pass.outcome_eq_ok succeeds
  obtain ⟨graph', order', unit, known, known', declared, rfl⟩ := ofSession_eq_ok_iff.1 rendered
  obtain rfl := Option.some.inj (sameGraph.symm.trans known)
  obtain rfl := Option.some.inj (sameOrder.symm.trans known')
  exact ⟨graph, order, closed, ordered, sameConfig ▸ declared⟩

/-- The type graph of a pass that succeeds and is rendered. -/
def renderedGraph? (config : Config) (model : HostModel) : Option TypeGraph := do
  let session ← (Pass.ofModel config model).outcome.toOption
  let _ ← (Rendering.ofSession session).toOption
  session.graph?

theorem exists_of_renderedGraph? {config : Config} {model : HostModel} {graph : TypeGraph}
    (known : renderedGraph? config model = some graph) :
    ∃ session rendering, (Pass.ofModel config model).outcome = .ok session ∧
      Rendering.ofSession session = .ok rendering ∧
      (config.viewOf model).closure (config.rootsOf model) = .ok graph := by
  obtain ⟨session, succeeds, rest⟩ := Option.bind_eq_some_iff.1 known
  obtain ⟨rendering, rendered, found⟩ := Option.bind_eq_some_iff.1 rest
  rw [Outcome.toOption_eq_some_iff] at succeeds rendered
  obtain ⟨graph', order, closed, -, -, found', -⟩ := Pass.outcome_eq_ok succeeds
  obtain rfl := Option.some.inj (found.symm.trans found')
  exact ⟨session, rendering, succeeds, rendered, closed⟩

/-- A public class with some supertypes and with a field of each of some types. -/
def bareType (name : String) (supertypes fields : List String) : HostType where
  name := name
  span := ⟨0, 0⟩
  kind := .class
  visibility := .public
  doc := none
  generics := []
  supertypes := supertypes.map fun super => .named super []
  members := fields.map fun field =>
    ⟨field, false, .named field [], false, false, false, .public, none, [], [], []⟩
  constructors := []
  nested := []
  closed := false
  variants := []
  constants := []
  annotations := []

/-- A subtype that inherits a field of a type that it does not mention itself. -/
def inheritingModel : HostModel where
  types := [bareType "B" ["A"] [], bareType "A" [] ["C"], bareType "C" [] []]
  distinct := by decide

/-- Declare the subtype with everything that it inherits. -/
def flattening : Config :=
  { Config.plain with roots := ["B"], emit := { Config.plainEmit with supertypes := .flattened } }

/-- The declarations of a pass, each with its group and its references. -/
def referenceTable (config : Config) (model : HostModel) :
    Option (List (Nat × String × List String)) := do
  let session ← (Pass.ofModel config model).outcome.toOption
  let rendering ← (Rendering.ofSession session).toOption
  return rendering.declarations.declarations.map fun declaration =>
    (declaration.group, declaration.name, declaration.references)

/-- A pass that succeeds declares every type of its closure once, in the order of emission and under
distinct names, and every reference is the name of a declaration in no later group. -/
theorem declarations_topological {config : Config} {model : HostModel} {session : Session}
    {rendering : Rendering} (succeeds : (Pass.ofModel config model).outcome = .ok session)
    (rendered : Rendering.ofSession session = .ok rendering) :
    ∃ graph order, (config.viewOf model).closure (config.rootsOf model) = .ok graph ∧
      graph.emissionOrder = .ok order ∧
      order.names.Perm graph.names ∧ graph.names.Nodup ∧
      rendering.declarations.declarations.map
        (fun declaration => (declaration.group, declaration.qualified)) = order.numbered ∧
      rendering.declarations.names = order.names.map Name.spelled ∧
      rendering.declarations.names.Nodup ∧
      ∀ declaration ∈ rendering.declarations.declarations,
        ∀ reference ∈ declaration.references,
          ∃ target ∈ rendering.declarations.declarations,
            target.name = reference ∧ target.group ≤ declaration.group := by
  obtain ⟨graph, order, closed, ordered, declared⟩ :=
    Rendering.exists_declareAll succeeds rendered
  have closure := HostView.isClosure_of_closure closed
  have perm := TypeGraph.names_perm_of_ordered ordered
  have names := TypeGraph.names_of_declareAll declared perm
  refine ⟨graph, order, closed, ordered, perm, graph.distinct,
    TypeGraph.map_declarations declared perm, names,
    names ▸ TypeGraph.nodup_spelled_of_ordered ordered, ?_⟩
  intro declaration member reference refers
  exact TypeGraph.exists_target_of_reference closure ordered declared member refers

/-- The inherited field makes the subtype refer to a type of an earlier group. -/
theorem inheritingModel_topological :
    ∃ session rendering, (Pass.ofModel flattening inheritingModel).outcome = .ok session ∧
      Rendering.ofSession session = .ok rendering ∧
      ∃ declaration ∈ rendering.declarations.declarations, declaration.name = "B" ∧
        "C" ∈ declaration.references ∧
        ∃ target ∈ rendering.declarations.declarations,
          target.name = "C" ∧ target.group ≤ declaration.group := by
  have evaluated : referenceTable flattening inheritingModel =
      some [(0, "C", []), (1, "A", ["C"]), (2, "B", ["C"])] := by
    cbv
  obtain ⟨session, succeeds, rest⟩ := Option.bind_eq_some_iff.1 evaluated
  obtain ⟨rendering, rendered, table⟩ := Option.bind_eq_some_iff.1 rest
  rw [Outcome.toOption_eq_some_iff] at succeeds rendered
  have listed : (2, "B", ["C"]) ∈ rendering.declarations.declarations.map fun declaration =>
      (declaration.group, declaration.name, declaration.references) := by
    rw [Option.some.inj table]
    decide
  obtain ⟨declaration, member, same⟩ := List.mem_map.1 listed
  have refers : "C" ∈ declaration.references := by
    rw [(Prod.mk.inj (Prod.mk.inj same).2).2]
    decide
  obtain ⟨graph, order, -, -, -, -, -, -, -, targets⟩ := declarations_topological succeeds rendered
  exact ⟨session, rendering, succeeds, rendered, declaration, member,
    (Prod.mk.inj (Prod.mk.inj same).2).1, refers, targets declaration member "C" refers⟩

end TypeBridge
