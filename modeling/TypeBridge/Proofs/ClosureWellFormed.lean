import TypeBridge.Proofs.ClosureContainment
import TypeBridge.Proofs.NodeReading

/-!
# Closures are well formed

Every reference in a closure gives a type of the closure one argument for each of its parameters,
and every type variable is declared where it stands.  The bounds that stand in for missing arguments
come from the scope of another type, so they are kept only when they mention no variable.
-/

namespace TypeBridge

namespace ResolvedType

/-- Every reference in a type, at any depth, gives one argument for each parameter, and every type
variable is declared.  `arity?` tells the number of parameters of a type that is known. -/
inductive WellFormed (arity? : String → Option Nat) (declared : String → Prop) :
    ResolvedType → Prop
  | primitive {which : Primitive} : WellFormed arity? declared (.primitive which)
  | named {name : String} {args : List ResolvedType} (arity : arity? name = some args.length)
      (each : ∀ arg ∈ args, WellFormed arity? declared arg) :
      WellFormed arity? declared (.named name args)
  | var {name : String} (known : declared name) : WellFormed arity? declared (.var name)
  | array {element : ResolvedType} (inner : WellFormed arity? declared element) :
      WellFormed arity? declared (.array element)
  | set {element : ResolvedType} (inner : WellFormed arity? declared element) :
      WellFormed arity? declared (.set element)
  | map {key value : ResolvedType} (first : WellFormed arity? declared key)
      (second : WellFormed arity? declared value) : WellFormed arity? declared (.map key value)
  | optional {type : ResolvedType} (inner : WellFormed arity? declared type) :
      WellFormed arity? declared (.optional type)
  | anything : WellFormed arity? declared .anything
  | anyBelow {bound : ResolvedType} (inner : WellFormed arity? declared bound) :
      WellFormed arity? declared (.anyBelow bound)
  | anyAbove {bound : ResolvedType} (inner : WellFormed arity? declared bound) :
      WellFormed arity? declared (.anyAbove bound)
  | unknown : WellFormed arity? declared .unknown

variable {arity? other? : String → Option Nat} {declared further : String → Prop}

/-- A well-formed type is well formed wherever its references have the same number of parameters and
its variables are declared. -/
theorem WellFormed.mono {type : ResolvedType} (wellFormed : type.WellFormed arity? declared)
    (references : ∀ name ∈ type.names, ∀ n, arity? name = some n → other? name = some n)
    (bindings : ∀ name ∈ type.vars, declared name → further name) :
    type.WellFormed other? further := by
  induction wellFormed with
  | primitive => exact .primitive
  | @named name args arity each ih =>
    refine .named (references name (by simp [names]) _ arity) ?_
    intro arg member
    apply ih arg member
    · intro inner mention
      apply references inner
      exact List.mem_cons_of_mem _ (mem_namesOfAll_iff.2 ⟨arg, member, mention⟩)
    · intro inner mention
      exact bindings inner (mem_varsOfAll_iff.2 ⟨arg, member, mention⟩)
  | @var name known => exact .var (bindings name (by simp [vars]) known)
  | array _ ih => exact .array (ih references bindings)
  | set _ ih => exact .set (ih references bindings)
  | map _ _ first second =>
    refine .map (first ?_ ?_) (second ?_ ?_)
    · exact fun name mention => references name (List.mem_append_left _ mention)
    · exact fun name mention => bindings name (List.mem_append_left _ mention)
    · exact fun name mention => references name (List.mem_append_right _ mention)
    · exact fun name mention => bindings name (List.mem_append_right _ mention)
  | optional _ ih => exact .optional (ih references bindings)
  | anything => exact .anything
  | anyBelow _ ih => exact .anyBelow (ih references bindings)
  | anyAbove _ ih => exact .anyAbove (ih references bindings)
  | unknown => exact .unknown

theorem WellFormed.of_vars_eq_nil {type : ResolvedType}
    (wellFormed : type.WellFormed arity? declared) (closed : type.vars = []) :
    type.WellFormed arity? further := by
  apply wellFormed.mono
  · exact fun _ _ _ known => known
  · intro name mention
    rw [closed] at mention
    cases mention

theorem WellFormed.apply {args : List ResolvedType}
    (each : ∀ arg ∈ args, arg.WellFormed arity? declared) (builtin : Builtin) :
    (builtin.apply args).WellFormed arity? declared := by
  have argument : ∀ index : Nat,
      ((args[index]?).getD ResolvedType.unknown).WellFormed arity? declared := by
    intro index
    cases found : args[index]? with
    | none => exact .unknown
    | some arg => exact each arg (List.mem_of_getElem? found)
  cases builtin with
  | primitive which => exact .primitive
  | unknown => exact .unknown
  | array => exact .array (argument 0)
  | set => exact .set (argument 0)
  | map => exact .map (argument 0) (argument 1)
  | optional => exact .optional (argument 0)

end ResolvedType

namespace HostModel

/-- A type around a name, as far as the model has it, declares a type variable. -/
def BindsAround (model : HostModel) (inner name : String) : Prop :=
  ∃ outer ∈ Name.outers inner, ∃ type, model.get? outer = some type ∧
    name ∈ type.generics.map (·.name)

end HostModel

/-- A node itself, or a type around it, declares a type variable. -/
def Node.Binds (model : HostModel) (node : Node) (name : String) : Prop :=
  name ∈ node.generics.map (·.name) ∨ model.BindsAround node.name name

/-- Everything that a node mentions is well formed, and each supertype is a reference. -/
structure Node.WellFormed (arity? : String → Option Nat) (model : HostModel) (node : Node) :
    Prop where
  supertypes : ∀ type ∈ node.supertypes, type.name?.isSome = true ∧
    type.WellFormed arity? (node.Binds model)
  bounds : ∀ type ∈ node.generics.filterMap (·.bound), type.WellFormed arity? (node.Binds model)
  members : ∀ member ∈ node.members, ∀ type ∈ member.types,
    type.WellFormed arity? fun name => member.Binds name ∨ node.Binds model name

theorem Node.WellFormed.mono {arity? other? : String → Option Nat} {model : HostModel}
    {node : Node} (wellFormed : node.WellFormed arity? model)
    (references : ∀ type ∈ node.types, ∀ name ∈ type.names, ∀ n, arity? name = some n →
      other? name = some n) : node.WellFormed other? model := by
  simp only [Node.types, List.mem_append, List.mem_flatMap] at references
  refine ⟨?_, ?_, ?_⟩
  · intro type member
    obtain ⟨reference, inner⟩ := wellFormed.supertypes type member
    exact ⟨reference, inner.mono (references type (.inl (.inl member))) fun _ _ => id⟩
  · intro type member
    exact (wellFormed.bounds type member).mono (references type (.inl (.inr member))) fun _ _ => id
  · intro member known type inside
    exact (wellFormed.members member known type inside).mono
      (references type (.inr ⟨member, known, inside⟩)) fun _ _ => id

namespace HostView

variable {view : HostView}

/-- How many parameters a type has that may be declared. -/
def arity? (view : HostView) (name : String) : Option Nat :=
  (view.admitted? name).map (·.generics.length)

/-- Resolved signatures are well formed in the scopes where they stand. -/
theorem Resolves.wellFormed {busy mentioned after : List String} {placed : List Placed}
    {types : List ResolvedType} (resolves : view.Resolves busy placed types mentioned after) :
    List.Forall₂ (fun placed type => type.WellFormed view.arity? (· ∈ placed.scope)) placed
      types := by
  have each : ∀ {scope : List String} {args : List Signature} {inner : List ResolvedType},
      List.Forall₂ (fun placed type => type.WellFormed view.arity? (· ∈ placed.scope))
        (args.map (Placed.mk scope)) inner →
      inner.length = args.length ∧ ∀ arg ∈ inner, arg.WellFormed view.arity? (· ∈ scope) := by
    intro scope args inner all
    refine ⟨by simpa using all.length_eq.symm, ?_⟩
    intro arg member
    obtain ⟨signature, _, wellFormed⟩ :=
      exists_of_forall₂ (List.forall₂_map_left_iff.1 all) member
    exact wellFormed
  induction resolves with
  | nil => exact .nil
  | anything _ ih => exact .cons .anything ih
  | anyBelow _ ih =>
    cases ih with
    | cons first others => exact .cons (.anyBelow first) others
  | anyAbove _ ih =>
    cases ih with
    | cons first others => exact .cons (.anyAbove first) others
  | array _ ih =>
    cases ih with
    | cons first others => exact .cons (.array first) others
  | var inScope _ ih => exact .cons (.var inScope) ih
  | @builtin _ _ _ _ _ _ _ _ builtin _ _ _ _ _ _ _ arguments ih =>
    exact .cons (.apply (each arguments).2 builtin) ih
  | hidden _ _ _ _ _ ih => exact .cons .unknown ih
  | applied _ admitted _ arity _ _ arguments ih =>
    obtain ⟨length, wellFormed⟩ := each arguments
    refine .cons (.named ?_ wellFormed) ih
    rw [arity?, admitted, length, arity]
    rfl
  | @raw _ _ _ _ _ _ _ type _ _ _ _ _ admitted _ _ _ bounds ih =>
    refine .cons (.named ?_ ?_) ih
    · rw [arity?, admitted, length_argumentsOf]
      rfl
    · intro arg member
      rcases mem_argumentsOf member with rfl | ⟨inside, closed⟩
      · exact .unknown
      · exact ((each bounds).2 arg inside).of_vars_eq_nil closed
  | again _ _ admitted _ _ ih =>
    refine .cons (.named ?_ ?_) ih
    · rw [arity?, admitted, List.length_replicate]
      rfl
    · intro arg member
      rw [List.eq_of_mem_replicate member]
      exact .unknown

theorem mem_varsIn_iff {type : HostType} {name : String} :
    name ∈ view.varsIn type.name type.generics ↔
      name ∈ type.generics.map (·.name) ∨ view.model.BindsAround type.name name := by
  rw [varsIn, List.mem_append, or_comm]
  apply or_congr_right
  simp only [outerVars, List.mem_flatMap, List.mem_reverse, List.mem_filterMap,
    HostModel.BindsAround]
  constructor
  · rintro ⟨type, ⟨outer, around, found⟩, declared⟩
    exact ⟨outer, around, type, found, declared⟩
  · rintro ⟨outer, around, type, found, declared⟩
    exact ⟨type, ⟨outer, around, found⟩, declared⟩

theorem Resolves.forall_wellFormed {mentioned scope : List String} {signatures : List Signature}
    {types : List ResolvedType}
    (resolves : view.Resolves [] (signatures.map (⟨scope, ·⟩)) types mentioned []) :
    ∀ type ∈ types, type.WellFormed view.arity? (· ∈ scope) := by
  intro type member
  obtain ⟨signature, -, wellFormed⟩ :=
    exists_of_forall₂ (List.forall₂_map_left_iff.1 resolves.wellFormed) member
  exact wellFormed

theorem ReadsNode.wellFormed {type : HostType} {node : Node} {mentioned : List String}
    {parts : Parts} (reads : view.ReadsNode type node mentioned parts) :
    node.WellFormed view.arity? view.model := by
  have binds : ∀ name, name ∈ view.varsIn type.name type.generics →
      node.Binds view.model name := by
    intro name inScope
    rw [Node.Binds, reads.generics, reads.name]
    exact mem_varsIn_iff.1 inScope
  refine ⟨?_, ?_, ?_⟩
  · intro supertype member
    rw [reads.kept, List.mem_filter] at member
    have resolved := reads.supertypes.forall_wellFormed supertype member.1
    exact ⟨member.2, resolved.mono (fun _ _ _ => id) fun name _ => binds name⟩
  · intro bound member
    have resolved := reads.bounds.forall_wellFormed bound member
    exact resolved.mono (fun _ _ _ => id) fun name _ => binds name
  · intro member listed type inside
    rw [reads.listed] at listed
    obtain ⟨reading, known, rfl⟩ := List.mem_map.1 listed
    obtain ⟨hostMember, -, readsMember⟩ := exists_of_forall₂ reads.members known
    obtain ⟨types, order, resolves⟩ := readsMember.resolves
    have resolved := resolves.forall_wellFormed type (order.mem_iff.2 inside)
    refine resolved.mono (fun _ _ _ => id) fun name _ inScope => ?_
    exact ((readsMember.mem_scopeIn_iff name).1 inScope).imp id (binds name)

end HostView

namespace TypeGraph

/-- How many parameters a type of the graph has. -/
def arity? (graph : TypeGraph) (name : String) : Option Nat :=
  (graph.get? name).map (·.generics.length)

end TypeGraph

namespace HostView

variable {view : HostView} {roots : List String} {graph : TypeGraph}

/-- Every node of a closure is read from the type of its name. -/
theorem IsClosure.exists_reading (closure : IsClosure view roots graph) {node : Node}
    (known : node ∈ graph.nodes) :
    ∃ type mentioned parts, view.model.get? node.name = some type ∧
      view.node type = Reading.result { node with index := 0 } mentioned ∧
      view.ReadsNode type { node with index := 0 } mentioned parts := by
  obtain ⟨type, mentioned, found, reading⟩ := closure.read node known
  obtain ⟨parts, reads⟩ := view.node_reading type _ mentioned reading
  exact ⟨type, mentioned, parts, found, reading, reads⟩

theorem IsClosure.arity?_eq (closure : IsClosure view roots graph) {name : String}
    (known : name ∈ graph.names) {n : Nat} (arity : view.arity? name = some n) :
    graph.arity? name = some n := by
  obtain ⟨node, member, rfl⟩ := List.mem_map.1 known
  obtain ⟨type, mentioned, parts, found, -, reads⟩ := closure.exists_reading member
  obtain ⟨type', admitted, rfl⟩ := Option.map_eq_some_iff.1 arity
  obtain ⟨found', -, -⟩ := admitted?_eq_some_iff.1 admitted
  obtain rfl := Option.some.inj (found.symm.trans found')
  have length : node.generics.length = type.generics.length := by
    simpa using congrArg List.length reads.generics
  rw [TypeGraph.arity?, TypeGraph.get?_eq_some_iff.2 ⟨member, rfl⟩, Option.map_some, length]

theorem IsClosure.node_wellFormed (closure : IsClosure view roots graph) {node : Node}
    (known : node ∈ graph.nodes) : node.WellFormed graph.arity? view.model := by
  obtain ⟨type, mentioned, parts, -, -, reads⟩ := closure.exists_reading known
  -- The number of the node plays no part.
  have wellFormed : node.WellFormed view.arity? view.model :=
    ⟨reads.wellFormed.supertypes, reads.wellFormed.bounds, reads.wellFormed.members⟩
  refine wellFormed.mono ?_
  intro inner inside name mention n arity
  have named : name ∈ node.types.flatMap (·.names) := List.mem_flatMap.2 ⟨inner, inside, mention⟩
  exact closure.arity?_eq (closure.mem_of_named known (List.mem_append_left _ named)) arity

theorem IsClosure.wellFormed (closure : IsClosure view roots graph)
    (nested : HostModel.IsNested view.model.types) {node : Node} (known : node ∈ graph.nodes) :
    node.WellFormed graph.arity? view.model ∧
      ∀ name ∈ node.nested ++ node.variants, name ∈ graph.names := by
  refine ⟨closure.node_wellFormed known, ?_⟩
  intro name member
  rcases List.mem_append.1 member with inside | variant
  · obtain ⟨type, mentioned, parts, found, reading, reads⟩ := closure.exists_reading known
    obtain ⟨-, -, -, covers⟩ := view.node_covers type _ mentioned reading
    have mention : name ∈ mentioned := by
      apply covers.subset
      exact List.mem_append_left _ (List.mem_append_left _ (List.mem_append_right _ inside))
    have listed := reads.nested ▸ inside
    obtain ⟨inner, declared, rfl⟩ := List.mem_map.1 listed
    obtain ⟨inType, -⟩ := HostModel.get?_eq_some_iff.1 found
    have inModel := nested type inType inner (List.mem_filter.1 declared).1
    exact closure.mem_of_mentions (List.mem_map_of_mem known)
      ⟨type, _, mentioned, found, reading, mention, List.mem_map_of_mem inModel⟩
  · exact closure.mem_of_named known (List.mem_append_right _ variant)

end HostView

/-- The closure of any roots over a model is well formed: references give as many arguments as their
types have parameters, type variables are declared where they stand, whatever is listed is a type of
the closure, and every node carries its position. -/
theorem closure_wellFormed {sources : List (String × String)} {model : HostModel}
    {allow : AllowList} {roots : List String} {graph : TypeGraph}
    (loaded : HostModel.ofSources sources = .ok model)
    (closed : (HostView.mk model allow).closure roots = .ok graph) :
    ∀ i node, graph.at? i = some node → node.index = i ∧
      node.WellFormed graph.arity? model ∧
      ∀ name ∈ node.nested ++ node.variants, name ∈ graph.names := by
  have closure := HostView.isClosure_of_closure closed
  intro i node found
  have known : node ∈ graph.nodes := List.mem_of_getElem? found
  exact ⟨closure.numbered i node found,
    closure.wellFormed (HostModel.isNested_of_ofSources loaded) known⟩

/-- The types of the closure for some sources, each with the types that it mentions. -/
def closureTypes (allow : AllowList) (sources : List (String × String)) (roots : List String) :
    Option (List (String × List ResolvedType)) := do
  let model ← (HostModel.ofSources sources).toOption
  let graph ← ((HostView.mk model allow).closure roots).toOption
  return graph.nodes.map fun node => (node.name, node.types)

/-- A type bounded by itself, and a type inside it that uses its variable. -/
def boundedSource : List (String × String) :=
  [("m.toml", "types=[[\"B\",\"class\",\"public\",\"\",[[\"T\",\"B\",\"in\"]],[],[],[]," ++
    "[[\"B$I\",\"class\",\"public\",\"\",[],[\"B<T>\"]]]]]")]

/-- The reference in the bound gives no arguments: its own bound stands in for them, and inside of
that nothing more is known. -/
theorem boundedSource_wellFormed :
    ∃ model graph, HostModel.ofSources boundedSource = .ok model ∧
      (HostView.mk model ⟨[]⟩).closure ["B$I"] = .ok graph ∧
      (graph.nodes.map fun node => (node.name, node.types)) =
        [("B$I", [.named "B" [.var "T"]]), ("B", [.named "B" [.named "B" [.unknown]]])] ∧
      ∀ i node, graph.at? i = some node → node.index = i ∧
        node.WellFormed graph.arity? model ∧
        ∀ name ∈ node.nested ++ node.variants, name ∈ graph.names := by
  have evaluated : closureTypes ⟨[]⟩ boundedSource ["B$I"] =
      some [("B$I", [.named "B" [.var "T"]]), ("B", [.named "B" [.named "B" [.unknown]]])] := by
    cbv
  obtain ⟨model, loaded, rest⟩ := Option.bind_eq_some_iff.1 evaluated
  obtain ⟨graph, closed, types⟩ := Option.bind_eq_some_iff.1 rest
  have loaded := Outcome.toOption_eq_some_iff.1 loaded
  have closed := Outcome.toOption_eq_some_iff.1 closed
  exact ⟨model, graph, loaded, closed, Option.some.inj types, closure_wellFormed loaded closed⟩

end TypeBridge
