import TypeBridge.Proofs.DeclarationTopology

/-!
# What spelled references resolve to

A script looks the first segment of a reference up among the type parameters of the method around
it, then among those of the declaration, then among the types of each enclosing namespace from the
innermost outwards, and last at top level.  Declaring a type refuses every reference that an
enclosing namespace captures.  It does not look at type parameters, so a reference resolves to its
type exactly when its first segment is no type parameter in scope.
-/

namespace TypeBridge

/-- A reference to a type by its host name, and the type parameters of the method around it. -/
structure Reference where
  target : String
  methodParameters : List String
  deriving DecidableEq

/-- The first segment of the reference as a script spells it. -/
def Reference.head (reference : Reference) : String :=
  ((Name.path reference.target).head?).getD ""

/-- The references in a member. -/
def Entry.references (entry : Entry) : List Reference :=
  match entry with
  | .discriminant _ _ | .property _ _ _ _ => entry.names.map (⟨·, []⟩)
  | .method _ generics _ _ _ _ => entry.names.map (⟨·, generics.map (·.name)⟩)

namespace Shape

/-- The names of the type parameters of a declaration. -/
def parameters : Shape → List String
  | constants _ => []
  | union generics _ | object generics _ _ _ => generics.map (·.name)

/-- The references in a declaration, in the order of its names. -/
def references : Shape → List Reference
  | constants _ => []
  | union generics variants =>
    (TypeParameter.names generics ++ variants.flatMap (·.names)).map (⟨·, []⟩)
  | object generics _ parents entries =>
    (TypeParameter.names generics).map (⟨·, []⟩) ++ entries.flatMap (·.references) ++
      (parents.flatMap (·.names)).map (⟨·, []⟩)

end Shape

/-- What the first segment of a reference, and with it the reference, is taken for. -/
inductive Meaning where
  | methodParameter
  | typeParameter
  /-- A declaration, by its host name. -/
  | declaration (qualified : String)
  deriving DecidableEq

namespace DeclarationUnit

/-- The declaration at a path of namespaces and a type. -/
def at? (unit : DeclarationUnit) (path : List String) : Option Declaration :=
  unit.declarations.find? fun declaration => Name.path declaration.qualified == path

/-- The innermost of some nested namespaces that has a type of a name, or else the top level. -/
def home (unit : DeclarationUnit) (enclosing : List String) (head : String) : List String :=
  (enclosing.inits.reverse.find? fun outside => (unit.at? (outside ++ [head])).isSome).getD []

/-- What a reference inside a declaration with some type parameters is taken for. -/
def meaning? (unit : DeclarationUnit) (enclosing parameters : List String)
    (reference : Reference) : Option Meaning :=
  if reference.head ∈ reference.methodParameters then some .methodParameter
  else if reference.head ∈ parameters then some .typeParameter
  else
    let path := unit.home enclosing reference.head ++ Name.path reference.target
    (unit.at? path).map fun found => .declaration found.qualified

end DeclarationUnit

theorem Reference.map_target (names parameters : List String) :
    (names.map fun name => (⟨name, parameters⟩ : Reference)).map (·.target) = names := by
  rw [List.map_map]
  exact List.map_id names

theorem Entry.map_target_references (entry : Entry) :
    entry.references.map (·.target) = entry.names := by
  cases entry with
  | discriminant | property | method => exact Reference.map_target _ _

theorem Shape.map_target_references (shape : Shape) :
    shape.references.map (·.target) = shape.names := by
  cases shape with
  | constants values => rfl
  | union generics variants => exact Reference.map_target _ _
  | object generics intersected parents entries =>
    rw [references, List.map_append, List.map_append, Reference.map_target, Reference.map_target,
      List.map_flatMap]
    simp only [Entry.map_target_references]
    rfl

namespace TypeGraph

open Outcome

variable {graph : TypeGraph} {config : EmitConfig} {order : EmissionOrder} {unit : DeclarationUnit}

theorem declaredAs?_eq_none_iff {text : String} :
    graph.declaredAs? text = none ↔ ∀ name ∈ graph.names, Name.spelled name ≠ text := by
  simp [declaredAs?]

/-- A namespace that captures no reference has no type of its first segment. -/
theorem path_ne_of_capture?_eq_none {enclosing outside : List String} {reference : Reference}
    (uncaptured : graph.capture? enclosing reference.target = none)
    (inside : outside <+: enclosing) (nonempty : outside ≠ []) {name : String}
    (known : name ∈ graph.names) : Name.path name ≠ outside ++ [reference.head] := by
  intro same
  have spelled : Name.spelled name = ".".intercalate outside ++ "." ++ reference.head := by
    rw [Name.spelled, same, String.intercalate_append_of_ne_nil nonempty (by simp),
      String.intercalate_singleton]
  have length : outside.length ≤ enclosing.length := inside.length_le
  have positive : 0 < outside.length := List.length_pos_iff.2 nonempty
  have depth : outside.length - 1 ∈ List.range enclosing.length := List.mem_range.2 (by omega)
  have free := List.findSome?_eq_none_iff.1 uncaptured _ depth
  rw [Option.map_eq_none_iff, declaredAs?_eq_none_iff, Nat.sub_add_cancel positive,
    ← List.prefix_iff_eq_take.1 inside] at free
  exact free name known spelled

theorem exists_declare (declared : graph.declareAll config order = .ok unit)
    {declaration : Declaration} (member : declaration ∈ unit.declarations) :
    ∃ node ∈ graph.nodes, ∃ warnings,
      graph.declare config declaration.group node = .ok (declaration, warnings) := by
  obtain ⟨made, mapped, same⟩ := bind_eq_ok_iff.1 declared
  cases same
  obtain ⟨written, known, rfl⟩ := List.mem_map.1 member
  obtain ⟨place, placed, succeeds⟩ := exists_of_forall₂ (forall₂_of_mapM mapped) known
  have group := (isDeclared_of_declare succeeds).group
  refine ⟨place.2, (mem_places_iff.1 placed).2, written.2, ?_⟩
  rw [group]
  exact succeeds

theorem capture?_eq_none_of_declare {group : Nat} {node : Node}
    {declared : Declaration × List Diagnostic}
    (succeeds : graph.declare config group node = .ok declared) {reference : Reference}
    (refers : reference ∈ (graph.draw config node).1.references) :
    graph.capture? (Name.path node.name).dropLast reference.target = none := by
  unfold declare at succeeds
  dsimp only at succeeds
  split at succeeds
  · cases succeeds
  · next uncaptured =>
    apply List.findSome?_eq_none_iff.1 uncaptured
    rw [← Shape.map_target_references]
    exact List.mem_map_of_mem refers

section

variable (ordered : graph.emissionOrder = .ok order)
  (declared : graph.declareAll config order = .ok unit)
include ordered declared

theorem map_qualified_perm : (unit.declarations.map (·.qualified)).Perm graph.names := by
  have perm := names_perm_of_ordered ordered
  have groups := congrArg (List.map Prod.snd) (map_declarations declared perm)
  rw [List.map_map, EmissionOrder.map_snd_numbered] at groups
  exact groups ▸ perm

/-- The only declaration at the path of a type of the graph is its own. -/
theorem at?_path {name : String} (known : name ∈ graph.names) :
    ∃ target, unit.at? (Name.path name) = some target ∧ target.qualified = name := by
  have perm := map_qualified_perm ordered declared
  obtain ⟨own, member, rfl⟩ := List.mem_map.1 (perm.mem_iff.2 known)
  cases found : unit.at? (Name.path own.qualified) with
  | none =>
    have missing := List.find?_eq_none.1 found own member
    simp at missing
  | some target =>
    refine ⟨target, rfl, ?_⟩
    have samePath : Name.path target.qualified = Name.path own.qualified := by
      simpa using List.find?_some found
    have inGraph : target.qualified ∈ graph.names :=
      perm.mem_iff.1 (List.mem_map_of_mem (List.mem_of_find?_eq_some found))
    have distinct := nodup_spelled_of_ordered ordered
    rw [((names_perm_of_ordered ordered).map Name.spelled).nodup_iff] at distinct
    refine List.inj_on_of_nodup_map distinct inGraph known ?_
    rw [Name.spelled, Name.spelled, samePath]

/-- The first segment of a reference that is not captured is found at top level. -/
theorem home_eq_nil {enclosing : List String} {reference : Reference}
    (uncaptured : graph.capture? enclosing reference.target = none) :
    unit.home enclosing reference.head = [] := by
  have perm := map_qualified_perm ordered declared
  rw [DeclarationUnit.home]
  cases found : enclosing.inits.reverse.find? fun outside =>
      (unit.at? (outside ++ [reference.head])).isSome with
  | none => rfl
  | some outside =>
    rw [Option.getD_some]
    by_contra nonempty
    have inside : outside <+: enclosing := by
      simpa using List.mem_of_find?_eq_some found
    have holds : (unit.at? (outside ++ [reference.head])).isSome = true := by
      simpa using List.find?_some found
    obtain ⟨inner, capturing⟩ := Option.isSome_iff_exists.1 holds
    have samePath : Name.path inner.qualified = outside ++ [reference.head] := by
      simpa using List.find?_some capturing
    have known : inner.qualified ∈ graph.names :=
      perm.mem_iff.1 (List.mem_map_of_mem (List.mem_of_find?_eq_some capturing))
    exact path_ne_of_capture?_eq_none uncaptured inside nonempty known samePath

/-- Every reference in a declaration to a type of the graph resolves to the declaration of that type
exactly when its first segment is neither a type parameter of the method around it nor one of the
declaration. -/
theorem references_resolve_iff :
    ∀ declaration ∈ unit.declarations, ∃ node ∈ graph.nodes, ∃ warnings,
      graph.declare config declaration.group node = .ok (declaration, warnings) ∧
      ∀ reference ∈ (graph.draw config node).1.references, reference.target ∈ graph.names →
        (unit.meaning? (Name.path node.name).dropLast (graph.draw config node).1.parameters
            reference = some (.declaration reference.target) ↔
          reference.head ∉ reference.methodParameters ∧
            reference.head ∉ (graph.draw config node).1.parameters) := by
  intro declaration member
  obtain ⟨node, known, warnings, succeeds⟩ := exists_declare declared member
  refine ⟨node, known, warnings, succeeds, ?_⟩
  intro reference refers inGraph
  have uncaptured := capture?_eq_none_of_declare succeeds refers
  have home := home_eq_nil ordered declared uncaptured
  obtain ⟨target, found, own⟩ := at?_path ordered declared inGraph
  by_cases ofMethod : reference.head ∈ reference.methodParameters
  · simp [DeclarationUnit.meaning?, ofMethod]
  by_cases ofType : reference.head ∈ (graph.draw config node).1.parameters
  · simp [DeclarationUnit.meaning?, ofMethod, ofType]
  · simp [DeclarationUnit.meaning?, ofMethod, ofType, home, found, own]

end

end TypeGraph

/-- A declared type with what each of its references is taken for. -/
def DeclarationUnit.meanings (unit : DeclarationUnit) (graph : TypeGraph) (config : EmitConfig) :
    List (String × List (String × Option Meaning)) :=
  graph.nodes.map fun node =>
    let shape := (graph.draw config node).1
    (node.name, shape.references.map fun reference =>
      (reference.target, unit.meaning? (Name.path node.name).dropLast shape.parameters reference))

/-- What is read off the declarations of the closure of some roots, in the order of its emission. -/
def DeclarationUnit.read? {α : Type} (read : TypeGraph → DeclarationUnit → α) (view : HostView)
    (roots : List String) : Option α := do
  let graph ← (view.closure roots).toOption
  let order ← graph.emissionOrder.toOption
  let unit ← (graph.declareAll Config.plainEmit order).toOption
  return read graph unit

theorem DeclarationUnit.exists_of_read? {α : Type} {read : TypeGraph → DeclarationUnit → α}
    {view : HostView} {roots : List String} {result : α}
    (evaluated : DeclarationUnit.read? read view roots = some result) :
    ∃ graph order unit, view.closure roots = .ok graph ∧ graph.emissionOrder = .ok order ∧
      graph.declareAll Config.plainEmit order = .ok unit ∧ read graph unit = result := by
  obtain ⟨graph, closed, rest⟩ := Option.bind_eq_some_iff.1 evaluated
  obtain ⟨order, ordered, rest⟩ := Option.bind_eq_some_iff.1 rest
  obtain ⟨unit, declared, same⟩ := Option.bind_eq_some_iff.1 rest
  rw [Outcome.toOption_eq_some_iff] at closed ordered declared
  exact ⟨graph, order, unit, closed, ordered, declared, Option.some.inj same⟩

/-- A type with a field of a type inside it, which has a method with a type parameter of its own
that returns the outer type. -/
def nestedModel : HostModel where
  types := [
    { Snapshot.plainType with
      name := "p.O"
      members := [{ Snapshot.plainMember with name := "i", type := .named "p.O$I" [] }] },
    { Snapshot.plainType with
      name := "p.O$I"
      members := [
        { Snapshot.plainMember with
          name := "m"
          isMethod := true
          type := .named "p.O" []
          generics := [⟨"U", none, none⟩] }] }]
  distinct := by decide

/-- The method returns the outer type, although it stands in a namespace of that name. -/
theorem nestedModel_resolves :
    ∃ graph order unit, (HostView.mk nestedModel ⟨["p"]⟩).closure ["p.O"] = .ok graph ∧
      graph.emissionOrder = .ok order ∧ graph.declareAll Config.plainEmit order = .ok unit ∧
      unit.meanings graph Config.plainEmit =
        [("p.O", [("p.O$I", some (.declaration "p.O$I"))]),
          ("p.O$I", [("p.O", some (.declaration "p.O"))])] ∧
      ∀ declaration ∈ unit.declarations, ∃ node ∈ graph.nodes, ∃ warnings,
        graph.declare Config.plainEmit declaration.group node = .ok (declaration, warnings) ∧
        ∀ reference ∈ (graph.draw Config.plainEmit node).1.references,
          reference.target ∈ graph.names →
          (unit.meaning? (Name.path node.name).dropLast
              (graph.draw Config.plainEmit node).1.parameters reference =
              some (.declaration reference.target) ↔
            reference.head ∉ reference.methodParameters ∧
              reference.head ∉ (graph.draw Config.plainEmit node).1.parameters) := by
  have evaluated : DeclarationUnit.read?
      (fun graph unit => unit.meanings graph Config.plainEmit) ⟨nestedModel, ⟨["p"]⟩⟩ ["p.O"] =
      some [("p.O", [("p.O$I", some (.declaration "p.O$I"))]),
        ("p.O$I", [("p.O", some (.declaration "p.O"))])] := by
    cbv
  obtain ⟨graph, order, unit, closed, ordered, declared, table⟩ :=
    DeclarationUnit.exists_of_read? evaluated
  exact ⟨graph, order, unit, closed, ordered, declared, table,
    TypeGraph.references_resolve_iff ordered declared⟩

/-- A type with a type parameter, and a field of a type that has the name of the parameter. -/
def capturingModel : HostModel where
  types := [
    { Snapshot.plainType with
      name := "org.x.Box"
      generics := [⟨"T", none, none⟩]
      members := [{ Snapshot.plainMember with name := "tag", type := .named "org.x.T" [] }] },
    { Snapshot.plainType with name := "org.x.T" }]
  distinct := by decide

/-- Every stage succeeds, and the type parameter captures the reference to the type. -/
theorem capturingModel_captured :
    ∃ graph order unit,
      (HostView.mk capturingModel ⟨["org.x"]⟩).closure ["org.x.Box"] = .ok graph ∧
      graph.emissionOrder = .ok order ∧ graph.declareAll Config.plainEmit order = .ok unit ∧
      ∃ node ∈ graph.nodes, node.name ∈ unit.declarations.map (·.qualified) ∧
        ∃ reference ∈ (graph.draw Config.plainEmit node).1.references,
          reference.target ∈ graph.names ∧
          unit.meaning? (Name.path node.name).dropLast
            (graph.draw Config.plainEmit node).1.parameters reference = some .typeParameter := by
  have evaluated : DeclarationUnit.read?
      (fun graph unit => unit.meanings graph Config.plainEmit)
      ⟨capturingModel, ⟨["org.x"]⟩⟩ ["org.x.Box"] =
      some [("org.x.Box", [("org.x.T", some .typeParameter)]), ("org.x.T", [])] := by
    cbv
  obtain ⟨graph, order, unit, closed, ordered, declared, table⟩ :=
    DeclarationUnit.exists_of_read? evaluated
  have entry : ("org.x.Box", [("org.x.T", some Meaning.typeParameter)]) ∈
      unit.meanings graph Config.plainEmit := by
    rw [table]
    exact List.mem_cons_self
  obtain ⟨node, known, same⟩ := List.mem_map.1 entry
  obtain ⟨reference, single, meaning⟩ := List.map_eq_singleton_iff.1 (Prod.mk.inj same).2
  have names : graph.names = ["org.x.Box", "org.x.T"] := by
    have first := congrArg (List.map Prod.fst) table
    rwa [DeclarationUnit.meanings, List.map_map] at first
  have written := (TypeGraph.map_qualified_perm ordered declared).mem_iff.2
    (List.mem_map_of_mem known)
  refine ⟨graph, order, unit, closed, ordered, declared, node, known, written, reference, ?_, ?_,
    (Prod.mk.inj meaning).2⟩
  · rw [single]
    exact List.mem_cons_self
  · rw [names, (Prod.mk.inj meaning).1]
    decide

end TypeBridge
