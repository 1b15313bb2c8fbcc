import TypeBridge.Declaration.Drawing
import TypeBridge.Proofs.ClosureWellFormed
import TypeBridge.Proofs.SnapshotRules

/-!
# When a closed type stays closed

A node is closed when it has variants, and a type has those of its declared variants that may be
declared.  So a closed type becomes a union of these, in their order, as long as there is one; when
none of its variants may be declared it becomes an object type, as if it were open.
-/

namespace TypeBridge

def Spelling.declared? : Spelling → Option String
  | declared name _ => some name
  | _ => none

/-- A union of references to some types, in their order. -/
def Shape.IsUnionOf (shape : Shape) (names : List String) : Prop :=
  ∃ generics variants, shape = .union generics variants ∧
    variants.map (·.declared?) = names.map some

/-- An object type, which other types may extend. -/
def Shape.IsObject (shape : Shape) : Prop :=
  ∃ generics intersected parents entries, shape = .object generics intersected parents entries

theorem Shape.IsUnionOf.not_isObject {shape : Shape} {names : List String}
    (union : shape.IsUnionOf names) : ¬shape.IsObject := by
  rintro ⟨generics, intersected, parents, entries, rfl⟩
  obtain ⟨_, _, same, -⟩ := union
  cases same

namespace TypeGraph

variable {graph : TypeGraph} {config : EmitConfig} {node : Node}

theorem declared?_variantReference (closed : Node) (variant : String) :
    (graph.variantReference closed variant).spell.declared? = some variant := by
  unfold variantReference
  split <;> rfl

theorem isUnionOf_draw (notEnum : node.isEnum = false) (closed : node.isClosed = true) :
    (graph.draw config node).1.IsUnionOf node.variants := by
  rw [draw, notEnum, closed]
  refine ⟨_, _, rfl, ?_⟩
  simp only [List.map_map, Function.comp_def, declared?_variantReference]

theorem isObject_draw (notEnum : node.isEnum = false) (isOpen : node.isClosed = false) :
    (graph.draw config node).1.IsObject := by
  rw [draw, notEnum, isOpen]
  exact ⟨_, _, _, _, rfl⟩

end TypeGraph

namespace HostView

variable {view : HostView} {roots : List String} {graph : TypeGraph} {node : Node}

theorem ReadsNode.isClosed_iff {type : HostType} {mentioned : List String} {parts : Parts}
    (reads : view.ReadsNode type node mentioned parts) :
    node.isClosed = true ↔ ∃ variant ∈ type.variants, view.Admits variant := by
  rw [Node.isClosed, reads.variants, variantNames]
  simp only [Bool.not_eq_true', List.isEmpty_eq_false_iff_exists_mem, List.mem_filter,
    isSome_admitted?_iff]

theorem IsClosure.isEnum_eq_false (closure : IsClosure view roots graph)
    (known : node ∈ graph.nodes) {type : HostType}
    (found : view.model.get? node.name = some type) (notEnum : type.kind ≠ .enum) :
    node.isEnum = false := by
  obtain ⟨type', mentioned, parts, found', -, reads⟩ := closure.exists_reading known
  obtain rfl := Option.some.inj (found.symm.trans found')
  have same : node.kind = type.kind := reads.kind
  simpa [Node.isEnum, same] using notEnum

end HostView

/-- The nodes of the closure for some sources, each with the kind and the closedness of its type and
with its variants. -/
def variantTable (allow : AllowList) (sources : List (String × String)) (roots : List String) :
    Option (List (String × Option (TypeKind × Bool) × List String)) := do
  let model ← (HostModel.ofSources sources).toOption
  let graph ← ((HostView.mk model allow).closure roots).toOption
  return graph.nodes.map fun node =>
    (node.name, (model.get? node.name).map fun type => (type.kind, type.closed), node.variants)

theorem exists_of_variantTable {allow : AllowList} {sources : List (String × String)}
    {roots : List String} {table : List (String × Option (TypeKind × Bool) × List String)}
    (evaluated : variantTable allow sources roots = some table) :
    ∃ model graph, HostModel.ofSources sources = .ok model ∧
      (HostView.mk model allow).closure roots = .ok graph ∧
      ∀ name kind closed variants, (name, some (kind, closed), variants) ∈ table →
        ∃ node ∈ graph.nodes, node.name = name ∧ node.variants = variants ∧
          ∃ type, model.get? node.name = some type ∧ type.kind = kind ∧ type.closed = closed := by
  obtain ⟨model, loaded, rest⟩ := Option.bind_eq_some_iff.1 evaluated
  obtain ⟨graph, resolved, same⟩ := Option.bind_eq_some_iff.1 rest
  rw [Outcome.toOption_eq_some_iff] at loaded resolved
  refine ⟨model, graph, loaded, resolved, ?_⟩
  intro name kind closed variants listed
  rw [← Option.some.inj same] at listed
  obtain ⟨node, known, entry⟩ := List.mem_map.1 listed
  obtain ⟨sameName, sameRest⟩ := Prod.mk.inj entry
  obtain ⟨described, sameVariants⟩ := Prod.mk.inj sameRest
  obtain ⟨type, found, sameType⟩ := Option.map_eq_some_iff.1 described
  obtain ⟨sameKind, sameClosed⟩ := Prod.mk.inj sameType
  exact ⟨node, known, sameName, sameVariants, type, found, sameKind, sameClosed⟩

/-- A closed type whose variants are two types, each of some visibility. -/
def twoVariantSource (first second : String) : List (String × String) :=
  [("m.toml", "[[types]]\nname=\"J\"\nclosed=true\nvariants=[\"L\",\"M\"]\n" ++
    "[[types]]\nname=\"L\"\nvisibility=\"" ++ first ++ "\"\n" ++
    "[[types]]\nname=\"M\"\nvisibility=\"" ++ second ++ "\"\n")]

/-- Over a loaded model a node of a closure has those declared variants of its type that may be
declared, in their order.  It is closed exactly when its type is closed and has such a variant; then
it becomes the union of these variants, unless it is an enumeration, and otherwise an object type. -/
theorem closed_resolved_iff {sources : List (String × String)} {model : HostModel}
    {allow : AllowList} {roots : List String} {graph : TypeGraph}
    (loaded : HostModel.ofSources sources = .ok model)
    (resolved : (HostView.mk model allow).closure roots = .ok graph) :
    ∀ node ∈ graph.nodes, ∃ type, model.get? node.name = some type ∧
      node.variants = type.variants.filter
        (fun variant => ((HostView.mk model allow).admitted? variant).isSome) ∧
      (node.isClosed = true ↔ type.closed = true ∧
        ∃ variant ∈ type.variants, (HostView.mk model allow).Admits variant) ∧
      (type.kind ≠ .enum → ∀ config : EmitConfig,
        ((graph.draw config node).1.IsUnionOf node.variants ↔ node.isClosed = true) ∧
        ((graph.draw config node).1.IsObject ↔ node.isClosed = false)) := by
  have closure := HostView.isClosure_of_closure resolved
  intro node known
  obtain ⟨type, mentioned, parts, found, -, reads⟩ := closure.exists_reading known
  obtain ⟨outer, kept⟩ :=
    HostModel.keepsRules_of_ofSources loaded type (HostModel.get?_eq_some_iff.1 found).1
  refine ⟨type, found, reads.variants, ?_, ?_⟩
  · have closed := reads.isClosed_iff
    refine closed.trans ⟨fun some => ⟨?_, some⟩, And.right⟩
    obtain ⟨variant, declared, -⟩ := some
    exact kept.closed.2 (List.ne_nil_of_mem declared)
  · intro notEnum config
    have kind := closure.isEnum_eq_false known found notEnum
    cases closed : node.isClosed with
    | true =>
      have union : (graph.draw config node).1.IsUnionOf node.variants :=
        TypeGraph.isUnionOf_draw kind closed
      simpa [union] using union.not_isObject
    | false =>
      have object : (graph.draw config node).1.IsObject := TypeGraph.isObject_draw kind closed
      simpa [object] using fun union : Shape.IsUnionOf _ _ => union.not_isObject object

theorem twoVariantSource_closed :
    ∃ model graph, HostModel.ofSources (twoVariantSource "public" "private") = .ok model ∧
      (HostView.mk model ⟨[]⟩).closure ["J"] = .ok graph ∧
      ∃ node ∈ graph.nodes, node.name = "J" ∧ node.isClosed = true ∧
        ∀ config, (graph.draw config node).1.IsUnionOf ["L"] := by
  have evaluated : variantTable ⟨[]⟩ (twoVariantSource "public" "private") ["J"] =
      some [("J", some (.interface, true), ["L"]), ("L", some (.interface, false), [])] := by
    cbv
  obtain ⟨model, graph, loaded, resolved, entries⟩ := exists_of_variantTable evaluated
  obtain ⟨node, known, name, variants, type, found, kind, -⟩ :=
    entries "J" .interface true ["L"] List.mem_cons_self
  obtain ⟨type', found', -, -, drawn⟩ := closed_resolved_iff loaded resolved node known
  obtain rfl := Option.some.inj (found.symm.trans found')
  have closed : node.isClosed = true := by simp [Node.isClosed, variants]
  have notEnum : type.kind ≠ .enum := by
    rw [kind]
    decide
  refine ⟨model, graph, loaded, resolved, node, known, name, closed, fun config => ?_⟩
  rw [← variants]
  exact (drawn notEnum config).1.2 closed

/-- With both variants hidden, the type is declared closed and becomes an object type. -/
theorem twoVariantSource_not_closed :
    ∃ model graph, HostModel.ofSources (twoVariantSource "private" "private") = .ok model ∧
      (HostView.mk model ⟨[]⟩).closure ["J"] = .ok graph ∧
      ∃ node ∈ graph.nodes, ∃ type, model.get? node.name = some type ∧ type.closed = true ∧
        type.kind ≠ .enum ∧ node.isClosed = false ∧
        ∀ config, (graph.draw config node).1.IsObject := by
  have evaluated : variantTable ⟨[]⟩ (twoVariantSource "private" "private") ["J"] =
      some [("J", some (.interface, true), [])] := by
    cbv
  obtain ⟨model, graph, loaded, resolved, entries⟩ := exists_of_variantTable evaluated
  obtain ⟨node, known, -, variants, type, found, kind, closed⟩ :=
    entries "J" .interface true [] List.mem_cons_self
  have isOpen : node.isClosed = false := by simp [Node.isClosed, variants]
  have notEnum : type.kind ≠ .enum := by
    rw [kind]
    decide
  have nodeKind :=
    (HostView.isClosure_of_closure resolved).isEnum_eq_false known found notEnum
  exact ⟨model, graph, loaded, resolved, node, known, type, found, closed, notEnum, isOpen,
    fun _ => TypeGraph.isObject_draw nodeKind isOpen⟩

end TypeBridge
