import TypeBridge.Proofs.ClosureWellFormed
import TypeBridge.Proofs.OwnMembers
import TypeBridge.Proofs.SignatureReferences

/-!
# The signatures that show in a declaration

A declaration refers to types through the signatures of its own type and of those whose members are
written into it, while a union refers to its variants.  On the way up along supertypes a type
parameter stands for an argument, and what it brings along was written in a signature further down.
-/

namespace TypeBridge

open Relation

def TypeParameter.applications (parameters : List TypeParameter) : List Application :=
  (parameters.filterMap (·.bound)).flatMap (·.applications)

def Entry.applications : Entry → List Application
  | .discriminant _ _ => []
  | .property _ type _ _ => type.applications
  | .method _ generics parameters result _ _ =>
    result.applications ++ TypeParameter.applications generics ++
      parameters.flatMap (·.2.applications)

namespace Shape

def applications : Shape → List Application
  | constants _ => []
  | union generics variants =>
    TypeParameter.applications generics ++ variants.flatMap (·.applications)
  | object generics _ parents entries =>
    TypeParameter.applications generics ++ entries.flatMap (·.applications) ++
      parents.flatMap (·.applications)

end Shape

theorem TypeParameter.map_name_applications (parameters : List TypeParameter) :
    (applications parameters).map (·.name) = names parameters := by
  simp only [applications, names, List.map_flatMap, Spelling.map_name_applications]

theorem Entry.map_name_applications (entry : Entry) :
    entry.applications.map (·.name) = entry.names := by
  cases entry <;> simp [applications, names, List.map_flatMap, Spelling.map_name_applications,
    TypeParameter.map_name_applications]

theorem Shape.map_name_applications (shape : Shape) :
    shape.applications.map (·.name) = shape.names := by
  cases shape <;> simp [applications, names, List.map_flatMap, Spelling.map_name_applications,
    TypeParameter.map_name_applications, Entry.map_name_applications]

theorem applications_orNothing (isNullable : Bool) (spelling : Spelling) :
    (spelling.orNothing isNullable).applications = spelling.applications := by
  cases isNullable <;> rfl

theorem exists_of_mem_applications_typeParameters {keepVariance : Bool} {generics : List Generic}
    {application : Application}
    (member : application ∈
      TypeParameter.applications (typeParameters keepVariance generics)) :
    ∃ type ∈ generics.filterMap (·.bound), application ∈ type.spell.applications := by
  simp only [TypeParameter.applications, typeParameters, List.mem_flatMap, List.mem_filterMap,
    List.mem_map] at member
  obtain ⟨spelling, ⟨_, ⟨generic, known, rfl⟩, bounded⟩, spelled⟩ := member
  obtain ⟨type, bound, rfl⟩ := Option.map_eq_some_iff.1 bounded
  exact ⟨type, List.mem_filterMap.2 ⟨generic, known, bound⟩, spelled⟩

theorem Member.exists_of_mem_applications_entry {member : Member} {application : Application}
    (spelled : application ∈ member.entry.applications) :
    ∃ type ∈ member.types, application ∈ type.spell.applications := by
  obtain ⟨name, kind, type, nullable, optional, doc⟩ := member
  cases kind with
  | field =>
    simp only [entry, Entry.applications, applications_orNothing] at spelled
    exact ⟨type, List.mem_singleton_self _, spelled⟩
  | method parameters generics =>
    simp only [entry, Entry.applications, applications_orNothing, List.flatMap_map,
      List.mem_append] at spelled
    simp only [types, List.cons_append, List.mem_cons, List.mem_append]
    rcases spelled with (ofResult | ofBounds) | ofParameters
    · exact ⟨type, .inl rfl, ofResult⟩
    · obtain ⟨bound, listed, spelled⟩ := exists_of_mem_applications_typeParameters ofBounds
      exact ⟨bound, .inr (.inr listed), spelled⟩
    · obtain ⟨parameter, listed, spelled⟩ := List.mem_flatMap.1 ofParameters
      exact ⟨parameter.type, .inr (.inl (List.mem_map_of_mem listed)), spelled⟩

theorem Member.visible_nil (member : Member) : member.visible [] = [] := by
  unfold visible
  split <;> rfl

/-- The bindings that reach into the signatures of a member: the type parameters of a method hide
others. -/
def HostMember.visible (member : HostMember) (bindings : Bindings) : Bindings :=
  if member.isMethod then
    bindings.filter fun (name, _) => !member.generics.any (·.name == name)
  else bindings

/-- A signature where it stands, before bounds stand in for anything. -/
def Placed.visit (placed : Placed) (bindings : Bindings) : HostView.Visit :=
  ⟨[], placed.scope, bindings, placed.signature⟩

namespace HostView

open Reading

variable {view : HostView}

theorem member_visible (view : HostView) (scope : List String) (owner : String)
    (member : HostMember) : (view.member scope owner member).Yields
      fun result _ => ∀ bindings, result.visible bindings = member.visible bindings := by
  unfold HostView.member
  by_cases isMethod : member.isMethod = true
  · simp only [isMethod, if_true]
    refine (view.generics_resolve _ _ member.generics).bind ?_
    rintro generics _ ⟨names, -⟩
    refine (view.parameters_resolve _ _ member.parameters).bind ?_
    intro parameters _ _
    rw [pure_bind]
    refine (view.type_resolves _ _ member.type).bind_pure ?_
    intro type _ _ bindings
    have named : ∀ name, generics.any (·.name == name) = member.generics.any (·.name == name) := by
      intro name
      simpa [List.any_map, Function.comp_def] using congrArg (List.any · (· == name)) names
    simp only [Member.visible, HostMember.visible, isMethod, if_true, named]
  · simp only [isMethod, Bool.false_eq_true, if_false, pure_bind]
    refine (view.type_resolves _ _ member.type).bind_pure ?_
    intro type _ _ bindings
    simp only [Member.visible, HostMember.visible, isMethod, Bool.false_eq_true, if_false]

/-- A node has the type parameters of its type in their places, and its members hide what those of
the type hide. -/
theorem node_aligned (view : HostView) (type : HostType) :
    (view.node type).Yields fun node _ =>
      List.Forall₂ (view.ReadsBound (view.varsIn type.name type.generics)) type.generics
        node.generics ∧
      List.Forall₂ (fun member result => ∀ bindings, result.visible bindings =
        member.visible bindings) (type.members.filter isListed) node.members := by
  unfold HostView.node
  refine (view.generics_resolve _ _ type.generics).bind ?_
  rintro generics _ ⟨-, -, bounds⟩
  refine (view.types_resolve _ _ type.supertypes).bind ?_
  intro supertypes _ _
  refine (Yields.mapM (view.member_visible _ type.name) (type.members.filter isListed)).bind ?_
  rintro _ _ ⟨members, rfl, -, visible⟩
  refine (view.nested_yields type).bind ?_
  intro nested _ _
  have members : List.Forall₂ (fun member (result : Member) => ∀ bindings,
      result.visible bindings = member.visible bindings) (type.members.filter isListed)
      (members.map (·.1)) :=
    List.forall₂_map_right_iff.2 visible
  dsimp only
  split
  · exact (view.variants_yields type.name type.variants).bind_pure fun _ _ _ => ⟨bounds, members⟩
  · refine (mention_yields _).bind fun _ _ _ => ?_
    exact (view.variants_yields type.name type.variants).bind_pure fun _ _ _ => ⟨bounds, members⟩

/-- The signatures that the node of a type is made of, where its variables stand for types. -/
def starts (view : HostView) (type : HostType) (bindings : Bindings) : List Visit :=
  let scope := view.varsIn type.name type.generics
  (boundsIn scope type.generics ++ type.supertypes.map (Placed.mk scope)).map (·.visit bindings) ++
    (type.members.filter isListed).flatMap fun member =>
      (member.placed scope).map (·.visit (member.visible bindings))

/-- A reference comes with what type variables stand for, or a signature of the type makes it. -/
def ComesFrom (view : HostView) (type : HostType) (bindings : Bindings)
    (application : Application) : Prop :=
  bindings.Carries application ∨ ∃ start ∈ view.starts type bindings, view.Makes start application

theorem Resolves.exists_start {placed : List Placed} {types : List ResolvedType}
    {met : List String} (resolves : view.Resolves [] placed types met []) {type : ResolvedType}
    (listed : type ∈ types) {bindings : Bindings} {application : Application}
    (spelled : application ∈ (type.spellIn bindings).applications) :
    bindings.Carries application ∨
      ∃ start ∈ placed.map (·.visit bindings), view.Makes start application := by
  obtain ⟨origin, known, accounts⟩ := exists_of_forall₂ resolves.accounts listed
  exact (accounts bindings application spelled).imp_right fun makes =>
    ⟨_, List.mem_map_of_mem known, makes⟩

theorem ReadsNode.comesFrom {type : HostType} {node : Node} {mentioned : List String}
    {parts : Parts} (reads : view.ReadsNode type node mentioned parts) {bindings : Bindings}
    {application : Application} {inner : ResolvedType}
    (listed : inner ∈ node.supertypes ++ node.generics.filterMap (·.bound))
    (spelled : application ∈ (inner.spellIn bindings).applications) :
    view.ComesFrom type bindings application := by
  have found : bindings.Carries application ∨ ∃ start ∈
      (boundsIn (view.varsIn type.name type.generics) type.generics ++
        type.supertypes.map (Placed.mk (view.varsIn type.name type.generics))).map
          (·.visit bindings), view.Makes start application := by
    refine (reads.bounds.append reads.supertypes).exists_start ?_ spelled
    rw [reads.kept] at listed
    rcases List.mem_append.1 listed with super | bound
    · exact List.mem_append_right _ (List.mem_filter.1 super).1
    · exact List.mem_append_left _ bound
  refine found.imp_right ?_
  rintro ⟨start, known, makes⟩
  exact ⟨start, List.mem_append_left _ known, makes⟩

theorem ReadsNode.comesFrom_member {type : HostType} {node : Node} {mentioned : List String}
    {parts : Parts} (reads : view.ReadsNode type node mentioned parts)
    (visible : List.Forall₂ (fun member result => ∀ bindings, Member.visible result bindings =
      HostMember.visible member bindings) (type.members.filter isListed) node.members)
    {bindings : Bindings} {application : Application} {member : Member} {inner : ResolvedType}
    (known : member ∈ node.members) (listed : inner ∈ member.types)
    (spelled : application ∈ (inner.spellIn (member.visible bindings)).applications) :
    view.ComesFrom type bindings application := by
  have members : List.Forall₂ (fun host (result : Member) =>
      ∃ met, view.ReadsMember (view.varsIn type.name type.generics) host result met)
      (type.members.filter isListed) node.members := by
    rw [reads.listed, List.forall₂_map_right_iff]
    exact reads.members.imp fun _ reading reads => ⟨reading.2, reads⟩
  obtain ⟨host, kept, ⟨met, readsMember⟩, same⟩ :=
    exists_of_forall₂ (List.Forall₂.mp (fun _ _ => And.intro) members visible) known
  obtain ⟨types, order, resolves⟩ := readsMember.resolves
  -- the type parameters of a method hide the same variables in the member and in its signatures
  rw [same bindings] at spelled
  rcases resolves.exists_start (order.mem_iff.2 listed) spelled with brought | ⟨start, made, makes⟩
  · refine .inl ?_
    obtain ⟨pair, inside, spelled⟩ := brought
    rw [← same bindings] at inside
    exact ⟨pair, member.visible_subset bindings pair inside, spelled⟩
  · exact .inr ⟨start, List.mem_append_right _ (List.mem_flatMap.2 ⟨host, kept, made⟩), makes⟩

end HostView

namespace TypeGraph

variable {view : HostView} {roots : List String} {graph : TypeGraph} {config : EmitConfig}
  {node : Node} {application : Application}

/-- One step up: a supertype of a node, with the types that its parameters stand for. -/
def Ascends (graph : TypeGraph) (entry parent : Node × Bindings) : Prop :=
  parent ∈ graph.parents entry.1 entry.2

/-- A reference is made by a signature of a node on the way up from another one. -/
def IsMadeAbove (graph : TypeGraph) (view : HostView) (node : Node) (application : Application) :
    Prop :=
  ∃ entry type, ReflTransGen graph.Ascends (node, []) entry ∧
    view.model.get? entry.1.name = some type ∧
    ∃ start ∈ view.starts type entry.2, view.Makes start application

/-- A node on the way up from another one; whatever comes with its type parameters is made further
down. -/
structure IsReached (graph : TypeGraph) (view : HostView) (node : Node)
    (entry : Node × Bindings) : Prop where
  known : entry.1 ∈ graph.nodes
  reached : ReflTransGen graph.Ascends (node, []) entry
  brought : ∀ application, entry.2.Carries application → graph.IsMadeAbove view node application

theorem isReached_self (known : node ∈ graph.nodes) : graph.IsReached view node (node, []) where
  known := known
  reached := .refl
  brought := by
    rintro application ⟨pair, none, -⟩
    cases none

theorem IsReached.isMadeAbove {entry : Node × Bindings} (reached : graph.IsReached view node entry)
    {type : HostType} (found : view.model.get? entry.1.name = some type)
    (comes : view.ComesFrom type entry.2 application) :
    graph.IsMadeAbove view node application := by
  rcases comes with brought | made
  · exact reached.brought application brought
  · exact ⟨entry, type, reached.reached, found, made⟩

section

variable (closure : view.IsClosure roots graph)
include closure

/-- Everything in the node of a closure comes from the signatures of its type. -/
theorem exists_comesFrom (known : node ∈ graph.nodes) :
    ∃ type, view.model.get? node.name = some type ∧ ∀ bindings application,
      (∀ inner ∈ node.supertypes ++ node.generics.filterMap (·.bound),
        application ∈ (inner.spellIn bindings).applications →
          view.ComesFrom type bindings application) ∧
      (∀ member ∈ node.members, ∀ inner ∈ member.types,
        application ∈ (inner.spellIn (member.visible bindings)).applications →
          view.ComesFrom type bindings application) := by
  obtain ⟨type, mentioned, parts, found, reading, reads⟩ := closure.exists_reading known
  obtain ⟨-, visible⟩ := view.node_aligned type _ mentioned reading
  exact ⟨type, found, fun bindings application =>
    ⟨fun inner listed => reads.comesFrom listed,
      fun member known inner listed => reads.comesFrom_member visible known listed⟩⟩

/-- Members met on the way up refer only to what signatures on the way refer to. -/
theorem climb_isMadeAbove (node : Node) : graph.Climb (graph.IsReached view node)
    (fun member => ∀ type ∈ member.types, ∀ application ∈ type.spell.applications,
      graph.IsMadeAbove view node application) where
  parents := by
    intro entry reached parent member
    obtain ⟨args, inherits, known, bindings⟩ := exists_of_mem_parents member
    obtain ⟨type, found, comes⟩ := exists_comesFrom closure reached.known
    refine ⟨known, reached.reached.tail member, ?_⟩
    rintro application ⟨pair, listed, spelled⟩
    rw [bindings, Node.bind, List.mem_reverse] at listed
    obtain ⟨arg, given, same⟩ := List.mem_map.1 (List.of_mem_zip listed).2
    rw [← same] at spelled
    -- what the parent is applied to stands in the reference to it
    refine reached.isMadeAbove found ((comes entry.2 application).1 _
      (List.mem_append_left _ inherits) ?_)
    exact ResolvedType.mem_applications_named_iff.2 (.inr ⟨arg, given, spelled⟩)
  members := by
    intro entry reached member listed type mentioned application spelled
    rw [Member.types_substitute] at mentioned
    obtain ⟨inner, known, rfl⟩ := List.mem_map.1 mentioned
    obtain ⟨type, found, comes⟩ := exists_comesFrom closure reached.known
    exact reached.isMadeAbove found ((comes entry.2 application).2 member listed inner known spelled)

end

/-- A node whose members are written into the declaration of another one: that one itself, or one
on the way up while inherited members are gathered. -/
def Contributes (graph : TypeGraph) (config : EmitConfig) (node : Node)
    (entry : Node × Bindings) : Prop :=
  entry = (node, []) ∨ graph.Gathers config node ∧ ReflTransGen graph.Ascends (node, []) entry

/-- A signature shows in the declaration of a node: one of a contributing node leads to it. -/
def Shows (graph : TypeGraph) (view : HostView) (config : EmitConfig) (node : Node)
    (visit : HostView.Visit) : Prop :=
  ∃ entry type start, graph.Contributes config node entry ∧
    view.model.get? entry.1.name = some type ∧ start ∈ view.starts type entry.2 ∧
    ReflTransGen view.Enters start visit

def IsShown (graph : TypeGraph) (view : HostView) (config : EmitConfig) (node : Node)
    (application : Application) : Prop :=
  ∃ visit given, graph.Shows view config node visit ∧ view.Applies visit given application

theorem IsMadeAbove.isShown (made : graph.IsMadeAbove view node application)
    (gathers : graph.Gathers config node) : graph.IsShown view config node application := by
  obtain ⟨entry, type, ascends, found, start, known, visit, given, leads, applies⟩ := made
  exact ⟨visit, given, ⟨entry, type, start, .inr ⟨gathers, ascends⟩, found, known, leads⟩, applies⟩

theorem isShown_of_comesFrom {type : HostType} (found : view.model.get? node.name = some type)
    (comes : view.ComesFrom type [] application) : graph.IsShown view config node application := by
  rcases comes with ⟨pair, none, -⟩ | ⟨start, known, visit, given, leads, applies⟩
  · cases none
  · exact ⟨visit, given, ⟨(node, []), type, start, .inl rfl, found, known, leads⟩, applies⟩

section

variable (closure : view.IsClosure roots graph) (known : node ∈ graph.nodes)
include closure known

theorem isShown_of_mem_types {type : ResolvedType}
    (listed : type ∈ node.supertypes ++ node.generics.filterMap (·.bound))
    (spelled : application ∈ type.spell.applications) :
    graph.IsShown view config node application := by
  obtain ⟨host, found, comes⟩ := exists_comesFrom closure known
  rw [← type.spellIn_nil] at spelled
  exact isShown_of_comesFrom found ((comes [] application).1 type listed spelled)

theorem isShown_of_mem_sourceMembers {member : Member}
    (listed : member ∈ (graph.sourceMembers config.supertypes node).members) {type : ResolvedType}
    (mentioned : type ∈ member.types) (spelled : application ∈ type.spell.applications) :
    graph.IsShown view config node application := by
  by_cases gathers : graph.Gathers config node
  · have each := (climb_isMadeAbove closure node).sourceMembers (isReached_self known)
      config.supertypes
    exact (each.of_mem listed type mentioned application spelled).isShown gathers
  · rw [members_of_not_gathers gathers] at listed
    obtain ⟨host, found, comes⟩ := exists_comesFrom closure known
    rw [← type.spellIn_nil, ← member.visible_nil] at spelled
    exact isShown_of_comesFrom found ((comes [] application).2 member listed type mentioned spelled)

/-- A reference in a declaration is made by a signature that shows there, or by a union. -/
theorem isShown_or_exists_variant
    (spelled : application ∈ (graph.draw config node).1.applications) :
    graph.IsShown view config node application ∨ node.isClosed = true ∧
      ∃ variant ∈ node.variants,
        application ∈ (graph.variantReference node variant).spell.applications := by
  have ofBounds : ∀ {keepVariance : Bool},
      application ∈ TypeParameter.applications (typeParameters keepVariance node.generics) →
        graph.IsShown view config node application := by
    intro keepVariance spelled
    obtain ⟨bound, listed, spelled⟩ := exists_of_mem_applications_typeParameters spelled
    exact isShown_of_mem_types closure known (List.mem_append_right _ listed) spelled
  unfold draw at spelled
  split at spelled
  · cases spelled
  split at spelled
  · next closed =>
    simp only [Shape.applications, List.flatMap_map, List.mem_append, List.mem_flatMap] at spelled
    exact spelled.imp ofBounds fun ofVariants => ⟨closed, ofVariants⟩
  · refine .inl ?_
    obtain ⟨members, parents, sources, inherited, drawn⟩ := graph.drawObject_eq config node
    simp only [drawn, Shape.applications, List.flatMap_append, List.flatMap_map,
      List.mem_append] at spelled
    rcases spelled with (bounds | ofDiscriminant | ofMembers) | ofParents
    · exact ofBounds bounds
    · split at ofDiscriminant <;> simp [Entry.applications] at ofDiscriminant
    · obtain ⟨member, kept, spelled⟩ := List.mem_flatMap.1 ofMembers
      obtain ⟨type, mentioned, spelled⟩ := Member.exists_of_mem_applications_entry spelled
      exact isShown_of_mem_sourceMembers closure known (sources member kept) mentioned spelled
    · obtain ⟨parent, listed, spelled⟩ := List.mem_flatMap.1 ofParents
      exact isShown_of_mem_types closure known
        (List.mem_append_left _ (inherited parent listed)) spelled

end

end TypeGraph

end TypeBridge
