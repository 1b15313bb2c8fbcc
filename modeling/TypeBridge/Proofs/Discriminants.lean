import TypeBridge.Proofs.ClosedTypes
import TypeBridge.Proofs.DeclarationTexts
import TypeBridge.Proofs.ReferenceScoping

/-!
# Which declarations carry a discriminant

A union lists the variants that its closed type names, while a declaration gets a discriminant when
one of its own direct supertypes is closed.  Nothing makes the two agree, so a listed variant has its
discriminant in front exactly when it names a closed type as a direct supertype, and so does a type
that no union lists.
-/

namespace TypeBridge

namespace Script

/-- The members of an object type; other statements have none. -/
def Statement.members : Statement → List DocumentedMember
  | .interface _ _ members | .intersection _ _ members => members
  | .typeAlias .. | .const .. | .function .. | .raw _ => []

def DocumentedMember.isReadonly (member : DocumentedMember) : Bool :=
  match member.content with
  | .property readonly .. => readonly
  | .method .. => false

end Script

/-- The property that tells a variant apart: read-only, and of the literal type of its name. -/
def Node.discriminant (config : EmitConfig) (node : Node) : Script.DocumentedMember :=
  ⟨none, .property true config.discriminant false (Text.quoted (Name.spelled node.name))⟩

theorem Node.written_discriminant (config : EmitConfig) (node : Node) :
    (node.discriminant config).written = node.writtenDiscriminant config := by
  simp [discriminant, writtenDiscriminant, Script.DocumentedMember.written, Script.MemberSyntax.text]

theorem Node.isReadonly_discriminant (config : EmitConfig) (node : Node) :
    (node.discriminant config).isReadonly = true :=
  rfl

theorem Member.isReadonly_entry (member : Member) :
    member.entry.syntaxOf.isReadonly = false := by
  unfold entry
  split <;> rfl

theorem Shape.members_statement_object {generics : List TypeParameter} {intersected : Bool}
    {parents : List Spelling} {entries : List Entry} (name : String) (doc : Option String) :
    ((Shape.object generics intersected parents entries).statement name doc).members =
      entries.map (·.syntaxOf) := by
  unfold statement
  dsimp only
  split <;> rfl

namespace TypeGraph

variable {graph : TypeGraph} {config : EmitConfig} {node : Node}

def statement (graph : TypeGraph) (config : EmitConfig) (node : Node) : Script.Statement :=
  (graph.draw config node).1.statement ((Name.path node.name).getLast?.getD "") node.doc

def text (graph : TypeGraph) (config : EmitConfig) (node : Node) : String :=
  Page.render .script
    (Script.inNamespace (Name.path node.name).dropLast (graph.statement config node).fragments)

theorem text_of_declare {group : Nat} {declared : Declaration × List Diagnostic}
    (succeeds : graph.declare config group node = .ok declared) :
    declared.1.qualified = node.name ∧ declared.1.text = graph.text config node := by
  unfold declare at succeeds
  dsimp only at succeeds
  split at succeeds
  · cases succeeds
  · cases succeeds
    exact ⟨rfl, rfl⟩

theorem exists_text {order : EmissionOrder} {unit : DeclarationUnit}
    (ordered : graph.emissionOrder = .ok order)
    (declared : graph.declareAll config order = .ok unit) (known : node ∈ graph.nodes) :
    ∃ declaration ∈ unit.declarations,
      declaration.qualified = node.name ∧ declaration.text = graph.text config node := by
  have listed : node.name ∈ unit.declarations.map (·.qualified) :=
    (map_qualified_perm ordered declared).mem_iff.2 (List.mem_map_of_mem known)
  obtain ⟨declaration, written, same⟩ := List.mem_map.1 listed
  obtain ⟨node', known', warnings, succeeds⟩ := exists_declare declared written
  obtain ⟨same', text⟩ := text_of_declare succeeds
  have twins : node' = node :=
    List.inj_on_of_nodup_map graph.distinct known' known (same'.symm.trans same)
  exact ⟨declaration, written, same, twins ▸ text⟩

/-- A direct supertype of a node is closed. -/
def ExtendsClosed (graph : TypeGraph) (node : Node) : Prop :=
  ∃ super ∈ graph.nodes, super.name ∈ node.supertypeNames ∧ super.isClosed = true

theorem isVariant_iff : graph.isVariant node = true ↔ graph.ExtendsClosed node := by
  simp only [isVariant, List.any_eq_true, List.mem_filterMap, get?_eq_some_iff, ExtendsClosed]
  constructor
  · rintro ⟨super, ⟨name, named, known, rfl⟩, closed⟩
    exact ⟨super, known, named, closed⟩
  · rintro ⟨super, known, named, closed⟩
    exact ⟨super, ⟨super.name, named, known, rfl⟩, closed⟩

instance : Decidable (graph.ExtendsClosed node) :=
  decidable_of_iff _ isVariant_iff

/-- The declaration of an object type is laid out with the members of its statement. -/
theorem text_eq_objectText (graph : TypeGraph) (config : EmitConfig)
    (notEnum : node.isEnum = false) (isOpen : node.isClosed = false) :
    graph.text config node =
      graph.objectText config node ((graph.statement config node).members.map (·.written)) := by
  have drawn : ∃ entries, (graph.draw config node).1 =
      .object (typeParameters (config.variance == .preserve) node.generics)
        (config.supertypes == .intersecting)
        ((if config.supertypes = .flattened then [] else graph.openSupertypes node).map (·.spell))
        entries := by
    rw [draw, notEnum, isOpen, if_neg Bool.false_ne_true, if_neg Bool.false_ne_true]
    exact ⟨_, rfl⟩
  obtain ⟨entries, drawn⟩ := drawn
  rw [text, statement, drawn, Page.render_script, Script.linesOfAll_inNamespace,
    Shape.members_statement_object]
  simp only [Shape.linesOfAll_statement_object, List.map_map]
  rfl

theorem text_eq_unionText (graph : TypeGraph) (config : EmitConfig)
    (notEnum : node.isEnum = false) (closed : node.isClosed = true) :
    graph.text config node = graph.unionText config node := by
  have some : (node.variants.map fun variant =>
      (graph.variantReference node variant).spell.text).isEmpty = false := by
    simpa [Node.isClosed] using closed
  have layout : ∀ depth : Nat, Fragment.linesOfAll depth (graph.statement config node).fragments =
      docLines depth node.doc ++ [.written depth ("export type " ++
        ((Name.path node.name).getLast?.getD "" ++
          Script.angled ((typeParameters (config.variance == .preserve) node.generics).map
            (·.text))) ++ " = " ++
          " | ".intercalate (node.variants.map fun variant =>
            (graph.variantReference node variant).spell.text) ++ ";")] := by
    intro depth
    rw [statement, draw, notEnum, closed, if_neg Bool.false_ne_true, if_pos rfl, Shape.statement,
      Script.Statement.unionOf, List.map_map, Script.Statement.fragments,
      Fragment.linesOfAll_append, Script.linesOfAll_docFragments, Script.union]
    simp only [Function.comp_def, some]
    rfl
  rw [text, Page.render_script, Script.linesOfAll_inNamespace]
  simp only [layout]
  rfl

/-- The declaration of an object type lists some members, behind its discriminant if it extends a
closed type. -/
structure ListsMembers (graph : TypeGraph) (config : EmitConfig) (node : Node)
    (members : List Member) : Prop where
  statement : (graph.statement config node).members =
    (if graph.ExtendsClosed node then [node.discriminant config] else []) ++
      members.map (·.entry.syntaxOf)
  text : graph.text config node = graph.objectText config node
    ((if graph.ExtendsClosed node then [node.writtenDiscriminant config] else []) ++
      members.map (·.written))

/-- What the statement of an object type lists is what its text lists. -/
theorem listsMembers_of_statement (notEnum : node.isEnum = false) (isOpen : node.isClosed = false)
    {members : List Member}
    (listed : (graph.statement config node).members =
      (if graph.isVariant node then [node.discriminant config] else []) ++
        members.map (·.entry.syntaxOf)) :
    graph.ListsMembers config node members := by
  have others : (members.map (·.entry.syntaxOf)).map (·.written) = members.map (·.written) := by
    rw [List.map_map]
    exact List.map_congr_left fun member _ => member.written_syntaxOf_entry
  simp only [isVariant_iff] at listed
  refine ⟨listed, ?_⟩
  rw [text_eq_objectText graph config notEnum isOpen, listed, List.map_append, others]
  by_cases variant : graph.ExtendsClosed node
  · rw [if_pos variant, if_pos variant, List.map_singleton, Node.written_discriminant]
  · rw [if_neg variant, if_neg variant, List.map_nil]

theorem members_statement_of_union (isUnion : node.isEnum = true ∨ node.isClosed = true) :
    (graph.statement config node).members = [] := by
  unfold statement draw
  by_cases isEnum : node.isEnum = true
  · rw [if_pos isEnum]
    rfl
  · rw [if_neg isEnum, if_pos (isUnion.resolve_left isEnum)]
    rfl

/-- The members of an object type are its discriminant, if it extends a closed type, and members
that are not read-only. -/
theorem exists_listsMembers (graph : TypeGraph) (config : EmitConfig)
    (notEnum : node.isEnum = false) (isOpen : node.isClosed = false) :
    ∃ others : List Member, graph.ListsMembers config node others := by
  obtain ⟨members, parents, -, -, drawn⟩ := graph.drawObject_eq config node
  refine ⟨members, listsMembers_of_statement notEnum isOpen ?_⟩
  rw [statement, draw, notEnum, isOpen, if_neg Bool.false_ne_true, if_neg Bool.false_ne_true, drawn,
    Shape.members_statement_object, List.map_append, List.map_map]
  split <;> rfl

theorem head?_members_eq_iff (notEnum : node.isEnum = false) (isOpen : node.isClosed = false) :
    (graph.statement config node).members.head? = some (node.discriminant config) ↔
      graph.ExtendsClosed node := by
  obtain ⟨others, listed⟩ := exists_listsMembers graph config notEnum isOpen
  rw [listed.statement]
  by_cases variant : graph.ExtendsClosed node
  · simp [variant]
  · simp only [variant, if_false, List.nil_append, iff_false]
    -- all other members can be written
    intro first
    obtain ⟨member, -, same⟩ := List.mem_map.1 (List.mem_of_head? first)
    have plain := member.isReadonly_entry
    rw [same, node.isReadonly_discriminant] at plain
    cases plain

theorem exists_readonly_iff :
    (∃ member ∈ (graph.statement config node).members, member.isReadonly = true) ↔
      node.isEnum = false ∧ node.isClosed = false ∧ graph.ExtendsClosed node := by
  by_cases isUnion : node.isEnum = true ∨ node.isClosed = true
  · rw [members_statement_of_union isUnion]
    rcases isUnion with isEnum | closed
    · simp [isEnum]
    · simp [closed]
  · simp only [not_or, Bool.not_eq_true] at isUnion
    obtain ⟨notEnum, isOpen⟩ := isUnion
    obtain ⟨others, listed⟩ := exists_listsMembers graph config notEnum isOpen
    simp only [listed.statement, notEnum, isOpen, true_and]
    by_cases variant : graph.ExtendsClosed node
    · simp [variant, Node.isReadonly_discriminant]
    · simp [variant, Member.isReadonly_entry]

end TypeGraph

structure Fronted where
  name : String
  isEnum : Bool
  variants : List String
  first : Option Script.DocumentedMember
  deriving DecidableEq

def TypeGraph.fronted (graph : TypeGraph) (config : EmitConfig) (node : Node) : Fronted :=
  ⟨node.name, node.isEnum, node.variants, (graph.statement config node).members.head?⟩

/-- The nodes of a pass that is rendered. -/
def frontTable (config : Config) (model : HostModel) : Option (List Fronted) :=
  (renderedGraph? config model).map fun graph => graph.nodes.map (graph.fronted config.emit)

theorem exists_of_frontTable {config : Config} {model : HostModel} {table : List Fronted}
    (evaluated : frontTable config model = some table) :
    ∃ session rendering graph, (Pass.ofModel config model).outcome = .ok session ∧
      Rendering.ofSession session = .ok rendering ∧
      (config.viewOf model).closure (config.rootsOf model) = .ok graph ∧
      graph.nodes.map (graph.fronted config.emit) = table := by
  obtain ⟨graph, known, same⟩ := Option.map_eq_some_iff.1 evaluated
  obtain ⟨session, rendering, succeeds, rendered, closed⟩ := exists_of_renderedGraph? known
  exact ⟨session, rendering, graph, succeeds, rendered, closed, same⟩

/-- A closed type with one variant, which has the given supertype, and a type below the closed one
that is not listed. -/
def leafModel (supertype : String) : HostModel where
  types := [
    { Snapshot.plainType with name := "J", closed := true, variants := ["L"] },
    { Snapshot.plainType with name := "L", supertypes := [.named supertype []] },
    { Snapshot.plainType with name := "M", supertypes := [.named "J" []] }]
  distinct := (by decide : ["J", "L", "M"].Nodup)

def belowClosed : Config :=
  { Config.plain with roots := ["J"] }

/-- A pass and a rendering that succeed declare every type that is no enumeration: a closed one as the
union of its variants, and every other as an object type with a line for each of its members.  A listed
variant that is an object type begins with its discriminant exactly when it names a closed type as a
direct supertype; and a type that no closed type lists has a read-only member exactly when it is an
object type that names a closed type as a direct supertype. -/
theorem discriminants_iff {config : Config} {model : HostModel} {session : Session}
    {rendering : Rendering} (succeeds : (Pass.ofModel config model).outcome = .ok session)
    (rendered : Rendering.ofSession session = .ok rendering) :
    ∃ graph, (config.viewOf model).closure (config.rootsOf model) = .ok graph ∧
      (∀ node ∈ graph.nodes, ∃ declaration ∈ rendering.declarations.declarations,
        declaration.qualified = node.name ∧ declaration.text = graph.text config.emit node ∧
        (node.isEnum = false → node.isClosed = true →
          declaration.text = graph.unionText config.emit node) ∧
        (node.isEnum = false → node.isClosed = false →
          ∃ members : List Member, graph.ListsMembers config.emit node members)) ∧
      (∀ closed ∈ graph.nodes, closed.isClosed = true → closed.isEnum = false →
        (graph.draw config.emit closed).1.IsUnionOf closed.variants ∧
        ∀ variant ∈ closed.variants, ∃ node ∈ graph.nodes, node.name = variant ∧
          (node.isClosed = false → node.isEnum = false →
            ((graph.statement config.emit node).members.head? =
                some (node.discriminant config.emit) ↔
              graph.ExtendsClosed node))) ∧
      ∀ node ∈ graph.nodes, (∀ closed ∈ graph.nodes, node.name ∉ closed.variants) →
        ((∃ member ∈ (graph.statement config.emit node).members, member.isReadonly = true) ↔
          node.isEnum = false ∧ node.isClosed = false ∧ graph.ExtendsClosed node) := by
  obtain ⟨graph, order, resolved, ordered, declared⟩ :=
    Rendering.exists_declareAll succeeds rendered
  have closure := HostView.isClosure_of_closure resolved
  refine ⟨graph, resolved, ?_, ?_, ?_⟩
  · intro node known
    obtain ⟨declaration, written, same, text⟩ := TypeGraph.exists_text ordered declared known
    refine ⟨declaration, written, same, text, fun notEnum closed => ?_, fun notEnum isOpen => ?_⟩
    · exact text.trans (TypeGraph.text_eq_unionText graph config.emit notEnum closed)
    · exact TypeGraph.exists_listsMembers graph config.emit notEnum isOpen
  · intro closed known isClosed notEnum
    refine ⟨TypeGraph.isUnionOf_draw notEnum isClosed, fun variant listed => ?_⟩
    have inGraph := closure.mem_of_named known (List.mem_append_right _ listed)
    obtain ⟨node, known', same⟩ := List.mem_map.1 inGraph
    exact ⟨node, known', same, fun isOpen kind => TypeGraph.head?_members_eq_iff kind isOpen⟩
  · intro node _ _
    exact TypeGraph.exists_readonly_iff

/-- A listed variant that names the closed type as its supertype begins with its discriminant. -/
theorem leafModel_discriminated :
    ∃ session rendering graph, (Pass.ofModel belowClosed (leafModel "J")).outcome = .ok session ∧
      Rendering.ofSession session = .ok rendering ∧
      (belowClosed.viewOf (leafModel "J")).closure (belowClosed.rootsOf (leafModel "J")) =
        .ok graph ∧
      ∃ union ∈ graph.nodes, (graph.draw belowClosed.emit union).1.IsUnionOf ["L"] ∧
        ∃ leaf ∈ graph.nodes, leaf.name = "L" ∧ graph.ExtendsClosed leaf ∧
          (graph.statement belowClosed.emit leaf).members.head? =
            some (leaf.discriminant belowClosed.emit) := by
  have evaluated : frontTable belowClosed (leafModel "J") =
      some [⟨"J", false, ["L"], none⟩,
        ⟨"L", false, [], some ⟨none, .property true "kind" false "\"L\""⟩⟩,
        ⟨"M", false, [], some ⟨none, .property true "kind" false "\"M\""⟩⟩] := by
    cbv
  obtain ⟨session, rendering, graph, succeeds, rendered, closed, table⟩ :=
    exists_of_frontTable evaluated
  obtain ⟨graph', closed', -, unions, -⟩ := discriminants_iff succeeds rendered
  obtain rfl : graph = graph' := Except.ok.inj (closed.symm.trans closed')
  obtain ⟨union, rest, nodes, first, table⟩ := List.map_eq_cons_iff.1 table
  obtain ⟨leaf, rest, rfl, second, table⟩ := List.map_eq_cons_iff.1 table
  obtain ⟨-, notEnum, variants, -⟩ := Fronted.mk.inj first
  obtain ⟨leafName, leafNotEnum, leafVariants, leafFirst⟩ := Fronted.mk.inj second
  have isClosed : union.isClosed = true := by simp [Node.isClosed, variants]
  have isOpen : leaf.isClosed = false := by simp [Node.isClosed, leafVariants]
  obtain ⟨drawn, listed⟩ := unions union (by simp [nodes]) isClosed notEnum
  obtain ⟨leaf', known, sameName, iff⟩ := listed "L" (variants ▸ List.mem_singleton.2 rfl)
  have inGraph : leaf ∈ graph.nodes := by simp [nodes]
  obtain rfl : leaf = leaf' :=
    List.inj_on_of_nodup_map graph.distinct inGraph known (leafName.trans sameName.symm)
  have headed : (graph.statement belowClosed.emit leaf).members.head? =
      some (leaf.discriminant belowClosed.emit) := by
    rw [leafFirst, Node.discriminant, leafName]
    decide
  exact ⟨session, rendering, graph, succeeds, rendered, closed, union, by simp [nodes],
    variants ▸ drawn, leaf, known, leafName, (iff isOpen leafNotEnum).1 headed, headed⟩

/-- A listed variant below a type in between has no discriminant, and the type in between, which no
closed type lists, has one. -/
theorem leafModel_not_discriminated :
    ∃ session rendering graph, (Pass.ofModel belowClosed (leafModel "M")).outcome = .ok session ∧
      Rendering.ofSession session = .ok rendering ∧
      (belowClosed.viewOf (leafModel "M")).closure (belowClosed.rootsOf (leafModel "M")) =
        .ok graph ∧
      (∃ union ∈ graph.nodes, union.isClosed = true ∧ union.isEnum = false ∧
        ∃ leaf ∈ graph.nodes, leaf.name ∈ union.variants ∧ leaf.isClosed = false ∧
          leaf.isEnum = false ∧ (graph.statement belowClosed.emit leaf).members.head? = none) ∧
      ∃ middle ∈ graph.nodes, (∀ closed ∈ graph.nodes, middle.name ∉ closed.variants) ∧
        (graph.statement belowClosed.emit middle).members.head? =
          some (middle.discriminant belowClosed.emit) := by
  have evaluated : frontTable belowClosed (leafModel "M") =
      some [⟨"J", false, ["L"], none⟩, ⟨"L", false, [], none⟩,
        ⟨"M", false, [], some ⟨none, .property true "kind" false "\"M\""⟩⟩] := by
    cbv
  obtain ⟨session, rendering, graph, succeeds, rendered, closed, table⟩ :=
    exists_of_frontTable evaluated
  obtain ⟨union, rest, nodes, first, table⟩ := List.map_eq_cons_iff.1 table
  obtain ⟨leaf, rest, rfl, second, table⟩ := List.map_eq_cons_iff.1 table
  obtain ⟨middle, rfl, third⟩ := List.map_eq_singleton_iff.1 table
  obtain ⟨-, notEnum, variants, -⟩ := Fronted.mk.inj first
  obtain ⟨leafName, leafNotEnum, leafVariants, leafFirst⟩ := Fronted.mk.inj second
  obtain ⟨middleName, -, middleVariants, middleFirst⟩ := Fronted.mk.inj third
  refine ⟨session, rendering, graph, succeeds, rendered, closed,
    ⟨union, by simp [nodes], by simp [Node.isClosed, variants], notEnum, leaf, by simp [nodes],
      by simp [leafName, variants], by simp [Node.isClosed, leafVariants], leafNotEnum, leafFirst⟩,
    middle, by simp [nodes], ?_, ?_⟩
  · intro closed known
    simp only [nodes, List.mem_cons, List.not_mem_nil, or_false] at known
    rcases known with rfl | rfl | rfl
    · simp [variants, middleName]
    · simp [leafVariants]
    · simp [middleVariants]
  · rw [middleFirst, Node.discriminant, middleName]
    decide

end TypeBridge
