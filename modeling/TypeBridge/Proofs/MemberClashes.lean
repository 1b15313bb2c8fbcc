import TypeBridge.Proofs.OwnMembers

/-!
# Clashes between the names of members

An object type has no field with the name of a method, and where it extends a closed type the name
of the discriminant belongs to its first member only.  Of the members that a declaration starts
from, it writes those that clash with nothing, in their order, and every other one is named in a
warning.
-/

namespace TypeBridge

/-- A warning at a type that a member with some name is left out for a clash. -/
structure Diagnostic.NamesClash (diagnostic : Diagnostic) (type name : String) : Prop where
  severity : diagnostic.severity = .warning
  rule : diagnostic.rule = some "member-clash"
  location : diagnostic.location = some type
  message :
    diagnostic.message =
        "member '" ++ name ++ "' clashes with the union discriminant and is omitted" ∨
      diagnostic.message =
        "field '" ++ name ++ "' clashes with a method of the same name and is omitted"

namespace TypeGraph

variable {graph : TypeGraph} {config : EmitConfig} {order : EmissionOrder} {unit : DeclarationUnit}
variable {node : Node} {member : Member} {members : List Member}

/-- The members that the declaration of a node starts from. -/
def selected (graph : TypeGraph) (config : EmitConfig) (node : Node) : List Member :=
  (graph.sourceMembers config.supertypes node).members

/-- A member has the name of the discriminant of a variant, or is a field with the name of a
method. -/
def Clashes (graph : TypeGraph) (config : EmitConfig) (node : Node) (member : Member) : Prop :=
  (graph.ExtendsClosed node ∧ member.name = config.discriminant) ∨
    member.isMethod = false ∧
      ∃ other ∈ graph.selected config node, other.isMethod = true ∧ other.name = member.name

theorem shown_sublist : (graph.shown config node).1.Sublist (graph.selected config node) := by
  unfold shown withoutDiscriminant
  dsimp only
  split
  · split
    · exact List.filter_sublist
    · exact List.Sublist.refl _
  · exact List.Sublist.refl _

theorem mem_shown_iff :
    member ∈ (graph.shown config node).1 ↔
      member ∈ graph.selected config node ∧
        ¬ (graph.ExtendsClosed node ∧ member.name = config.discriminant) := by
  unfold shown withoutDiscriminant
  dsimp only
  rw [← isVariant_iff]
  split
  · next isVariant =>
    split
    · simp [selected, isVariant]
    · next none =>
      have differs : ∀ other ∈ graph.selected config node, other.name ≠ config.discriminant := by
        simpa [selected] using none
      simp only [isVariant, true_and]
      exact ⟨fun listed => ⟨listed, differs member listed⟩, And.left⟩
  · next plain => simp [selected, plain]

theorem mem_withoutFieldClashes_iff :
    member ∈ (withoutFieldClashes members).1 ↔
      member ∈ members ∧ ¬ (member.isMethod = false ∧
        ∃ other ∈ members, other.isMethod = true ∧ other.name = member.name) := by
  simp only [withoutFieldClashes, List.mem_filter, Bool.not_eq_true', Bool.and_eq_false_iff,
    Bool.not_eq_false', List.any_eq_false, Bool.and_eq_true, beq_iff_eq]
  refine and_congr_right fun _ => ?_
  cases member.isMethod <;> simp

/-- Members with the name of the discriminant are gone before methods are compared with fields, but
then the fields with that name are gone too. -/
theorem mem_withoutFieldClashes_shown_iff :
    member ∈ (withoutFieldClashes (graph.shown config node).1).1 ↔
      member ∈ graph.selected config node ∧ ¬ graph.Clashes config node member := by
  simp only [mem_withoutFieldClashes_iff, mem_shown_iff, Clashes, not_or, and_assoc]
  refine and_congr_right fun _ => and_congr_right fun visible => not_congr ?_
  refine and_congr_right fun _ => exists_congr fun other => and_congr_right fun listed => ?_
  constructor
  · exact And.right
  · rintro ⟨isMethod, same⟩
    exact ⟨fun hidden => visible ⟨hidden.1, same ▸ hidden.2⟩, isMethod, same⟩

/-- A member that clashes is named in a warning at the node. -/
theorem exists_namesClash (listed : member ∈ graph.selected config node)
    (clashes : graph.Clashes config node member) :
    ∃ omission ∈ (graph.drawObject config node).2,
      (omission.diagnostic node.name).NamesClash node.name member.name := by
  rw [omissions_drawObject]
  by_cases visible : member ∈ (graph.shown config node).1
  · -- the member is left out as a field
    have hidden : member ∉ (withoutFieldClashes (graph.shown config node).1).1 := fun kept =>
      (mem_withoutFieldClashes_shown_iff.1 kept).2 clashes
    obtain ⟨omission, omitted, names⟩ := (mem_withoutFieldClashes_or visible).resolve_left hidden
    refine ⟨omission, List.mem_append_right _ omitted, ?_⟩
    obtain ⟨field, -, rfl⟩ := List.mem_map.1 omitted
    have same : member.name = field.name := names.2
    exact ⟨rfl, rfl, rfl, .inr (same ▸ rfl)⟩
  · -- the member is left out for the discriminant
    have named : graph.ExtendsClosed node ∧ member.name = config.discriminant := by
      by_contra other
      exact visible (mem_shown_iff.2 ⟨listed, other⟩)
    refine ⟨.discriminantClash config.discriminant,
      List.mem_append_left _ (List.mem_append_right _ ?_), ⟨rfl, rfl, rfl, .inl (named.2 ▸ rfl)⟩⟩
    have clash : (graph.selected config node).any (·.name == config.discriminant) = true :=
      List.any_eq_true.2 ⟨member, listed, beq_iff_eq.2 named.2⟩
    unfold selected at clash
    simp [shown, isVariant_iff.2 named.1, withoutDiscriminant, clash]

/-- An object type writes its discriminant, if it is a variant, and the members that clash with
nothing. -/
theorem exists_kept_members (graph : TypeGraph) (config : EmitConfig)
    (notEnum : node.isEnum = false) (isOpen : node.isClosed = false) :
    ∃ kept : List Member, kept.Sublist (graph.selected config node) ∧
      (∀ member ∈ graph.selected config node,
        member ∈ kept ↔ ¬ graph.Clashes config node member) ∧
      graph.ListsMembers config node kept := by
  refine ⟨(withoutFieldClashes (graph.shown config node).1).1,
    List.filter_sublist.trans shown_sublist, fun member listed => ?_,
    listsMembers_of_statement notEnum isOpen ?_⟩
  · rw [mem_withoutFieldClashes_shown_iff]
    exact ⟨And.right, fun kept => ⟨listed, kept⟩⟩
  · obtain ⟨generics, intersected, parents, object⟩ := graph.members_drawObject config node
    rw [statement, draw, notEnum, isOpen, if_neg Bool.false_ne_true, if_neg Bool.false_ne_true,
      object, Shape.members_statement_object, List.map_append, List.map_map]
    split <;> rfl

/-- The declaration of a node, and the warnings about it, are in the unit. -/
theorem exists_warned (declared : graph.declareAll config order = .ok unit)
    (known : node ∈ graph.nodes) (listed : node.name ∈ order.names) :
    ∃ declaration ∈ unit.declarations,
      declaration.qualified = node.name ∧ declaration.text = graph.text config node ∧
      ∀ omission ∈ (graph.draw config node).2,
        omission.diagnostic node.name ∈ unit.diagnostics := by
  obtain ⟨made, mapped, same⟩ := Outcome.bind_eq_ok_iff.1 declared
  cases same
  rw [← order.map_snd_numbered, List.mem_map] at listed
  obtain ⟨⟨group, name⟩, numbered, rfl⟩ := listed
  have placed : (group, node) ∈ graph.places order := mem_places_iff.2 ⟨numbered, known⟩
  obtain ⟨written, member, succeeds⟩ :=
    exists_of_forall₂ (Outcome.forall₂_of_mapM mapped).flip placed
  obtain ⟨qualified, text⟩ := text_of_declare succeeds
  refine ⟨written.1, List.mem_map_of_mem member, qualified, text, fun omission omitted => ?_⟩
  refine List.mem_flatMap.2 ⟨written, member, ?_⟩
  rw [warnings_of_declare succeeds]
  exact List.mem_map_of_mem omitted

/-- Members whose names do not clash in the object type of a node. -/
structure IsClashFree (graph : TypeGraph) (config : EmitConfig) (node : Node)
    (kept : List Member) : Prop where
  /-- No field has the name of a method. -/
  distinct : ∀ field ∈ kept, ∀ method ∈ kept, field.isMethod = false → method.isMethod = true →
    field.name ≠ method.name
  /-- In a variant, no member has the name of the discriminant. -/
  discriminated : graph.ExtendsClosed node → ∀ member ∈ kept, member.name ≠ config.discriminant

theorem isClashFree_of_harmless {kept : List Member}
    (sublist : kept.Sublist (graph.selected config node))
    (harmless : ∀ member ∈ kept, ¬ graph.Clashes config node member) :
    graph.IsClashFree config node kept where
  distinct field inFields method inMethods isField isMethod same :=
    harmless field inFields (.inr ⟨isField, method, sublist.subset inMethods, isMethod, same.symm⟩)
  discriminated closed member listed same := harmless member listed (.inl ⟨closed, same⟩)

/-- When the types of an order can be declared, the declaration of an object type has a line for each
of the members that it starts from and that clash with nothing, in their order; if the type extends a
closed type, the line of the discriminant stands in front of these.  So no field has the name of a
method, and nothing else has the name of the discriminant.  Each member that clashes is named in a
warning at the type. -/
theorem member_clashes_warned (declared : graph.declareAll config order = .ok unit) :
    ∀ node ∈ graph.nodes, node.name ∈ order.names →
      node.isEnum = false → node.isClosed = false →
      (∃ declaration ∈ unit.declarations, declaration.qualified = node.name ∧
        ∃ kept : List Member, kept.Sublist (graph.selected config node) ∧
          (∀ member ∈ graph.selected config node,
            member ∈ kept ↔ ¬ graph.Clashes config node member) ∧
          graph.IsClashFree config node kept ∧
          declaration.text = graph.objectText config node
            ((if graph.ExtendsClosed node then [node.writtenDiscriminant config] else []) ++
              kept.map (·.written))) ∧
      ∀ member ∈ graph.selected config node, graph.Clashes config node member →
        ∃ diagnostic ∈ unit.diagnostics, diagnostic.NamesClash node.name member.name := by
  intro node known listed notEnum isOpen
  obtain ⟨declaration, written, qualified, text, warned⟩ := exists_warned declared known listed
  obtain ⟨kept, sublist, keeps, lists⟩ := graph.exists_kept_members config notEnum isOpen
  refine ⟨⟨declaration, written, qualified, kept, sublist, keeps, ?_, text.trans lists.text⟩, ?_⟩
  · apply isClashFree_of_harmless sublist
    intro member inKept
    exact (keeps member (sublist.subset inKept)).1 inKept
  · intro member source clashes
    obtain ⟨omission, omitted, names⟩ := exists_namesClash source clashes
    rw [draw, notEnum, isOpen, if_neg Bool.false_ne_true, if_neg Bool.false_ne_true] at warned
    exact ⟨_, warned omission omitted, names⟩

def closedBase : Node :=
  { bareNode "Base" [] [] with variants := ["Leaf"] }

def numberField (name : String) : Member :=
  ⟨name, .field, .primitive .number, false, false, none⟩

/-- A variant with a field and a method that have the name of its discriminant, and a field and a
method that have another name. -/
def crowdedLeaf : Node :=
  { bareNode "Leaf" ["Base"] [] with
    members := [numberField "kind", { unary .string with name := "kind" }, numberField "size",
      { unary .number with name := "size" }] }

def crowdedLeaves : TypeGraph where
  nodes := [closedBase, crowdedLeaf]
  distinct := by simp [closedBase, crowdedLeaf, bareNode]

/-- One method is left behind the discriminant, and both names are in warnings. -/
theorem crowdedLeaves_warned :
    ∃ unit, crowdedLeaves.declareAll Config.plainEmit ⟨[["Base"], ["Leaf"]]⟩ = .ok unit ∧
      crowdedLeaf ∈ crowdedLeaves.nodes ∧ crowdedLeaf.isEnum = false ∧
      crowdedLeaf.isClosed = false ∧
      (∃ declaration ∈ unit.declarations, ∃ kept : List Member,
        crowdedLeaves.IsClashFree Config.plainEmit crowdedLeaf kept ∧
        declaration.text = crowdedLeaves.objectText Config.plainEmit crowdedLeaf
          ([crowdedLeaf.writtenDiscriminant Config.plainEmit] ++ kept.map (·.written)) ∧
        declaration.text = "export interface Leaf \x7b\n" ++ "  readonly kind: \"Leaf\";\n" ++
          "  size(x: number): void;\n" ++ "\x7d\n") ∧
      ∀ name ∈ ["kind", "size"],
        ∃ diagnostic ∈ unit.diagnostics, diagnostic.NamesClash "Leaf" name := by
  have evaluated : (crowdedLeaves.declareAll Config.plainEmit ⟨[["Base"], ["Leaf"]]⟩).toOption.map
      (fun unit => unit.declarations.map fun declaration =>
        (declaration.qualified, declaration.text)) =
      some [("Base", "export type Base = Leaf;\n"), ("Leaf", "export interface Leaf \x7b\n" ++
        "  readonly kind: \"Leaf\";\n" ++ "  size(x: number): void;\n" ++ "\x7d\n")] := by
    cbv
  obtain ⟨unit, succeeds, table⟩ := Option.map_eq_some_iff.1 evaluated
  rw [Outcome.toOption_eq_some_iff] at succeeds
  have known : crowdedLeaf ∈ crowdedLeaves.nodes := by simp [crowdedLeaves]
  have source : crowdedLeaves.selected Config.plainEmit crowdedLeaf = crowdedLeaf.members := by cbv
  have closed : crowdedLeaves.ExtendsClosed crowdedLeaf :=
    ⟨closedBase, by simp [crowdedLeaves], List.mem_cons_self, rfl⟩
  obtain ⟨⟨declaration, written, qualified, kept, -, -, free, text⟩, warned⟩ :=
    member_clashes_warned succeeds crowdedLeaf known (by decide) rfl rfl
  rw [if_pos closed] at text
  have row : (declaration.qualified, declaration.text) ∈
      unit.declarations.map fun declaration => (declaration.qualified, declaration.text) :=
    List.mem_map_of_mem written
  have leaf : declaration.qualified = "Leaf" := qualified
  have printed : declaration.text = "export interface Leaf \x7b\n" ++
      "  readonly kind: \"Leaf\";\n" ++ "  size(x: number): void;\n" ++ "\x7d\n" := by
    simpa [table, leaf] using row
  refine ⟨unit, succeeds, known, rfl, rfl, ⟨declaration, written, kept, free, text, printed⟩, ?_⟩
  intro name listed
  rcases List.mem_pair.1 listed with rfl | rfl
  · refine warned (numberField "kind") (source ▸ ?_) (.inl ⟨closed, rfl⟩)
    exact List.mem_cons_self
  · refine warned (numberField "size") (source ▸ ?_)
      (.inr ⟨rfl, { unary .number with name := "size" }, source ▸ ?_, rfl, rfl⟩)
    · simp [crowdedLeaf]
    · simp [crowdedLeaf]

end TypeGraph

end TypeBridge
