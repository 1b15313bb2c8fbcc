import TypeBridge.Proofs.ShownSignatures

/-!
# Unknown arguments for bounded parameters

A parameter whose bound says something gets an unknown type from a signature when the argument says
nothing, or when it is missing and no bound stands in for it; from a union, when the variant does
not pass the parameter on.
-/

namespace TypeBridge

def Node.argumentsFor? (node : Node) (super : String) : Option (List ResolvedType) :=
  node.supertypes.findSome? fun
    | .named name args => if name = super then some args else none
    | _ => none

/-- A variant passes a type parameter on to a closed type: it is an argument of that supertype. -/
def Node.PassesOn (variant closed : Node) (parameter : String) : Prop :=
  ∃ args, variant.argumentsFor? closed.name = some args ∧ .var parameter ∈ args

/-- A reference to a variant gives an unknown type for exactly the type parameters that the variant
does not pass on. -/
def Node.SettlesVariant (closed variant : Node) (application : Application) : Prop :=
  ∀ (index : Nat) (generic : Generic) (arg : Spelling), variant.generics[index]? = some generic →
    application.args[index]? = some arg →
    (arg = .unknown ↔ ¬ variant.PassesOn closed generic.name)

theorem Node.mem_supertypes_of_argumentsFor? {node : Node} {super : String}
    {args : List ResolvedType} (found : node.argumentsFor? super = some args) :
    .named super args ∈ node.supertypes := by
  obtain ⟨supertype, listed, named⟩ := List.exists_of_findSome?_eq_some found
  split at named
  · split at named
    · next same =>
      obtain rfl := Option.some.inj named
      exact same ▸ listed
    · cases named
  · cases named

namespace HostView

variable {view : HostView}

/-- A reference that a signature makes, seen from its target: a parameter whose bound says something
gets an unknown type exactly when it is left open, and is supplied otherwise. -/
def Settles (view : HostView) (visit : Visit) (target : Node) (application : Application) : Prop :=
  ∃ given, view.Applies visit given application ∧
    ∀ (index : Nat) (generic : Generic) (bound : ResolvedType) (arg : Spelling),
      target.generics[index]? = some generic → generic.bound = some bound →
      bound.spell ≠ .unknown → application.args[index]? = some arg →
      (arg = .unknown ↔ view.LeavesOpen visit given application.name index bound) ∧
        (arg ≠ .unknown → view.Supplies visit given application.name index arg)

end HostView

namespace TypeGraph

variable {view : HostView} {roots : List String} {graph : TypeGraph} {config : EmitConfig}
  {node : Node} {application : Application}

/-- What a union gives for a parameter of a variant: the parameter of the closed type that receives
it. -/
def received (closed : Node) (passed : List ResolvedType) (parameter : String) : ResolvedType :=
  match (passed.findIdx? (· == .var parameter)).bind (closed.generics[·]?) with
  | some generic => .var generic.name
  | none => .unknown

theorem variantReference_eq {closed target : Node} (found : graph.get? target.name = some target) :
    graph.variantReference closed target.name = .named target.name
      (target.generics.map fun generic =>
        received closed ((target.argumentsFor? closed.name).getD []) generic.name) := by
  rw [variantReference, found]
  rfl

theorem spell_received_eq_unknown_iff {closed : Node} {passed : List ResolvedType}
    (fits : passed.length ≤ closed.generics.length) (parameter : String) :
    (received closed passed parameter).spell = .unknown ↔ .var parameter ∉ passed := by
  unfold received
  cases found : passed.findIdx? (· == ResolvedType.var parameter) with
  | none =>
    rw [List.findIdx?_eq_none_iff] at found
    simp only [Option.bind_none, ResolvedType.spell, true_iff]
    intro member
    simpa using found _ member
  | some index =>
    obtain ⟨inside, same, -⟩ := List.findIdx?_eq_some_iff_getElem.1 found
    have member : .var parameter ∈ passed := by
      rw [← beq_iff_eq.1 same]
      exact List.getElem_mem inside
    simp [List.getElem?_eq_getElem (inside.trans_le fits), ResolvedType.spell, member]

theorem applications_spell_received (closed : Node) (passed : List ResolvedType)
    (parameter : String) : (received closed passed parameter).spell.applications = [] := by
  unfold received
  split <;> rfl

section

variable (closure : view.IsClosure roots graph) (known : node ∈ graph.nodes)
include closure known

theorem exists_variant_of_mem_applications {variant : String} (listed : variant ∈ node.variants)
    (spelled : application ∈ (graph.variantReference node variant).spell.applications) :
    ∃ target ∈ graph.nodes, target.name = application.name ∧ variant = application.name ∧
      application.args.length = target.generics.length ∧ node.SettlesVariant target application := by
  have named := closure.mem_of_named known (List.mem_append_right _ listed)
  obtain ⟨target, inGraph, rfl⟩ := List.mem_map.1 named
  rw [variantReference_eq (get?_eq_some_iff.2 ⟨inGraph, rfl⟩), ← ResolvedType.spellIn_nil]
    at spelled
  -- the variant applies the closed type to one argument for each parameter, so each is received
  have fits : ((target.argumentsFor? node.name).getD []).length ≤ node.generics.length := by
    cases passed : target.argumentsFor? node.name with
    | none => simp
    | some args =>
      have above := Node.mem_supertypes_of_argumentsFor? passed
      cases ((closure.node_wellFormed inGraph).supertypes _ above).2 with
      | named arity =>
        rw [arity?, get?_eq_some_iff.2 ⟨known, rfl⟩, Option.map_some, Option.some.injEq] at arity
        simp [arity]
  rcases ResolvedType.mem_applications_named_iff.1 spelled with rfl | ⟨arg, given, spelled⟩
  · refine ⟨target, inGraph, rfl, rfl, by simp, ?_⟩
    intro index generic arg parameter argument
    simp only [List.getElem?_map, parameter, Option.map_some, Option.some.injEq,
      ResolvedType.spellIn_nil] at argument
    rw [← argument, spell_received_eq_unknown_iff fits, Node.PassesOn]
    cases target.argumentsFor? node.name <;> simp
  · obtain ⟨generic, -, rfl⟩ := List.mem_map.1 given
    rw [ResolvedType.spellIn_nil, applications_spell_received] at spelled
    cases spelled

theorem settles_of_applies {visit : HostView.Visit} {given : List Signature}
    (applies : view.Applies visit given application) (same : node.name = application.name) :
    application.args.length = node.generics.length ∧ view.Settles visit node application := by
  obtain ⟨type, admitted, length, settled⟩ := applies.exists_settled
  obtain ⟨type', mentioned, parts, found, reading, reads⟩ := closure.exists_reading known
  obtain rfl : type' = type := by
    rw [same, (HostView.admitted?_eq_some_iff.1 admitted).1] at found
    exact (Option.some.inj found).symm
  obtain ⟨bounds, -⟩ := view.node_aligned type' _ mentioned reading
  refine ⟨length.trans bounds.length_eq, given, applies, ?_⟩
  intro index generic bound arg parameter bounded informative argument
  obtain ⟨host, placed, readsBound⟩ := exists_getElem?_of_forall₂ bounds parameter
  obtain ⟨signature, met, written, resolves⟩ := readsBound bound bounded
  have name : type'.name = application.name := reads.name.symm.trans same
  rw [name] at resolves
  exact settled index host signature bound met arg placed written resolves informative argument

/-- Every reference in a declaration of a closure gives one argument for each parameter of a type of
the closure, and is settled by a signature that shows there or by a union. -/
theorem exists_target_of_application
    (spelled : application ∈ (graph.draw config node).1.applications) :
    ∃ target ∈ graph.nodes, target.name = application.name ∧
      application.args.length = target.generics.length ∧
      ((∃ visit, graph.Shows view config node visit ∧ view.Settles visit target application) ∨
        application.name ∈ node.variants ∧ node.SettlesVariant target application) := by
  rcases isShown_or_exists_variant closure known spelled with
    ⟨visit, given, visible, applies⟩ | ⟨-, variant, listed, ofVariant⟩
  · have drawn : application.name ∈ (graph.draw config node).1.names := by
      rw [← Shape.map_name_applications]
      exact List.mem_map_of_mem spelled
    have reaches : graph.Reaches node.name application.name :=
      (closedUnder_reaches closure node.name).draw known .refl config _ drawn
    have named := mem_names_of_reaches (List.mem_map_of_mem known) reaches
    obtain ⟨target, inGraph, same⟩ := List.mem_map.1 named
    obtain ⟨length, settles⟩ := settles_of_applies closure inGraph applies same
    exact ⟨target, inGraph, same, length, .inl ⟨visit, visible, settles⟩⟩
  · obtain ⟨target, inGraph, same, rfl, length, passes⟩ :=
      exists_variant_of_mem_applications closure known listed ofVariant
    exact ⟨target, inGraph, same, length, .inr ⟨listed, passes⟩⟩

end

end TypeGraph

/-- The types of a pass that is rendered, each with its type parameters and with the references in
its declaration. -/
def applicationTable (config : Config) (model : HostModel) :
    Option (List (String × List Generic × List Application)) :=
  (renderedGraph? config model).map fun graph => graph.nodes.map fun node =>
    (node.name, node.generics, (graph.draw config.emit node).1.applications)

theorem exists_of_applicationTable {config : Config} {model : HostModel}
    {table : List (String × List Generic × List Application)}
    (evaluated : applicationTable config model = some table) :
    ∃ session rendering graph, (Pass.ofModel config model).outcome = .ok session ∧
      Rendering.ofSession session = .ok rendering ∧
      (config.viewOf model).closure (config.rootsOf model) = .ok graph ∧
      ∀ name generics applications, (name, generics, applications) ∈ table →
        ∃ node ∈ graph.nodes, node.name = name ∧ node.generics = generics ∧
          (graph.draw config.emit node).1.applications = applications := by
  obtain ⟨graph, known, same⟩ := Option.map_eq_some_iff.1 evaluated
  obtain ⟨session, rendering, succeeds, rendered, closed⟩ := exists_of_renderedGraph? known
  refine ⟨session, rendering, graph, succeeds, rendered, closed, ?_⟩
  intro name generics applications listed
  rw [← same] at listed
  obtain ⟨node, inGraph, entry⟩ := List.mem_map.1 listed
  obtain ⟨sameName, sameRest⟩ := Prod.mk.inj entry
  exact ⟨node, inGraph, sameName, Prod.mk.inj sameRest⟩

/-- A generic type with a bound, and a type with two fields of it: one for a wildcard and one without
arguments. -/
def shelfModel : HostModel where
  types := [
    { Snapshot.plainType with
      name := "Shelf"
      members := [
        { Snapshot.plainMember with name := "any", type := .named "Box" [.anything] },
        { Snapshot.plainMember with name := "plain", type := .named "Box" [] }] },
    { Snapshot.plainType with name := "Box", generics := [⟨"T", some (.named "Tree" []), none⟩] },
    { Snapshot.plainType with name := "Tree" }]
  distinct := by decide

def shelving : Config :=
  { Config.plain with roots := ["Shelf"] }

/-- Declarations of a pass and a rendering that succeed refer to types of the closure, with one
argument for each parameter.  A parameter whose bound says something gets an unknown type exactly in
these cases: a signature gives it an argument that says nothing, or no argument while its bounds are
being resolved or where its bound mentions type variables, or a union refers to a variant that does
not pass it on.  Otherwise a missing argument is the bound. -/
theorem bounded_parameters_settled {config : Config} {model : HostModel} {session : Session}
    {rendering : Rendering} (succeeds : (Pass.ofModel config model).outcome = .ok session)
    (rendered : Rendering.ofSession session = .ok rendering) :
    ∃ graph, (config.viewOf model).closure (config.rootsOf model) = .ok graph ∧
      ∀ declaration ∈ rendering.declarations.declarations, ∃ node ∈ graph.nodes,
        declaration.qualified = node.name ∧ declaration.text = graph.text config.emit node ∧
        ∀ application ∈ (graph.draw config.emit node).1.applications, ∃ target ∈ graph.nodes,
          target.name = application.name ∧
          application.args.length = target.generics.length ∧
          ((∃ visit, graph.Shows (config.viewOf model) config.emit node visit ∧
              (config.viewOf model).Settles visit target application) ∨
            application.name ∈ node.variants ∧ node.SettlesVariant target application) := by
  obtain ⟨graph, order, resolved, -, declared⟩ := Rendering.exists_declareAll succeeds rendered
  have closure := HostView.isClosure_of_closure resolved
  refine ⟨graph, resolved, fun declaration written => ?_⟩
  obtain ⟨node, known, warnings, made⟩ := TypeGraph.exists_declare declared written
  obtain ⟨name, text⟩ := TypeGraph.text_of_declare made
  exact ⟨node, known, name, text, fun application spelled =>
    TypeGraph.exists_target_of_application closure known spelled⟩

theorem applicationTable_shelving : applicationTable shelving shelfModel =
    some [("Shelf", [],
        [⟨"Box", [.unknown]⟩, ⟨"Box", [.declared "Tree" []]⟩, ⟨"Tree", []⟩]),
      ("Box", [⟨"T", some (.named "Tree" []), none⟩], [⟨"Tree", []⟩]), ("Tree", [], [])] := by
  cbv

/-- The bound stands in for the missing argument of the second field. -/
theorem shelving_settled :
    ∃ session rendering graph, (Pass.ofModel shelving shelfModel).outcome = .ok session ∧
      Rendering.ofSession session = .ok rendering ∧
      (shelving.viewOf shelfModel).closure (shelving.rootsOf shelfModel) = .ok graph ∧
      (∃ node ∈ graph.nodes, node.name = "Shelf" ∧
        ⟨"Box", [.declared "Tree" []]⟩ ∈ (graph.draw shelving.emit node).1.applications) ∧
      ∀ declaration ∈ rendering.declarations.declarations, ∃ node ∈ graph.nodes,
        declaration.qualified = node.name ∧
        ∀ application ∈ (graph.draw shelving.emit node).1.applications, ∃ target ∈ graph.nodes,
          target.name = application.name ∧
          ((∃ visit, graph.Shows (shelving.viewOf shelfModel) shelving.emit node visit ∧
              (shelving.viewOf shelfModel).Settles visit target application) ∨
            application.name ∈ node.variants ∧ node.SettlesVariant target application) := by
  obtain ⟨session, rendering, graph, succeeds, rendered, closed, entries⟩ :=
    exists_of_applicationTable applicationTable_shelving
  obtain ⟨graph', closed', settled⟩ := bounded_parameters_settled succeeds rendered
  obtain rfl : graph = graph' := Except.ok.inj (closed.symm.trans closed')
  obtain ⟨node, known, name, -, applications⟩ := entries "Shelf" _ _ List.mem_cons_self
  refine ⟨session, rendering, graph, succeeds, rendered, closed,
    ⟨node, known, name, by rw [applications]; simp⟩, fun declaration written => ?_⟩
  obtain ⟨node', known', name', -, each⟩ := settled declaration written
  refine ⟨node', known', name', fun application spelled => ?_⟩
  obtain ⟨target, inGraph, same, -, settles⟩ := each application spelled
  exact ⟨target, inGraph, same, settles⟩

/-- The wildcard of the first field is spelled as an unknown type, although the parameter that it is
given for is bounded by a declared type. -/
theorem shelving_wildcard_unknown :
    ∃ session rendering graph, (Pass.ofModel shelving shelfModel).outcome = .ok session ∧
      Rendering.ofSession session = .ok rendering ∧
      (shelving.viewOf shelfModel).closure (shelving.rootsOf shelfModel) = .ok graph ∧
      ∃ node ∈ graph.nodes, node.name ∈ rendering.declarations.declarations.map (·.qualified) ∧
        ∃ application ∈ (graph.draw shelving.emit node).1.applications, ∃ target ∈ graph.nodes,
          target.name = application.name ∧ ∃ generic bound,
            target.generics[0]? = some generic ∧ generic.bound = some bound ∧
            bound.spell ≠ .unknown ∧ application.args[0]? = some .unknown := by
  obtain ⟨session, rendering, graph, succeeds, rendered, closed, entries⟩ :=
    exists_of_applicationTable applicationTable_shelving
  obtain ⟨graph', order, closed', ordered, declared⟩ :=
    Rendering.exists_declareAll succeeds rendered
  obtain rfl : graph = graph' := Except.ok.inj (closed.symm.trans closed')
  obtain ⟨node, known, name, -, applications⟩ := entries "Shelf" _ _ List.mem_cons_self
  obtain ⟨target, inGraph, same, generics, -⟩ :=
    entries "Box" _ _ (List.mem_cons_of_mem _ List.mem_cons_self)
  have written := (TypeGraph.map_qualified_perm ordered declared).mem_iff.2
    (List.mem_map_of_mem known)
  refine ⟨session, rendering, graph, succeeds, rendered, closed, node, known, written,
    ⟨"Box", [.unknown]⟩, by rw [applications]; exact List.mem_cons_self, target, inGraph, same,
    ⟨"T", some (.named "Tree" []), none⟩, .named "Tree" [], ?_, rfl, ?_, rfl⟩
  · rw [generics]
    rfl
  · simp [ResolvedType.spell]

end TypeBridge
