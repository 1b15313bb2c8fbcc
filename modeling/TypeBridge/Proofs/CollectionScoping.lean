import TypeBridge.Proofs.ReferenceScoping
import TypeBridge.Proofs.VariableScoping

/-!
# What the names of sets and maps resolve to

A set or a map is spelled by the name of a type that every script has.  A script looks this name up
like any other, and so finds a type parameter in scope or a declaration around it first.  Declaring
a type compares only the names of host types with each other, hence neither is refused.
-/

namespace TypeBridge

/-- The types of a script that a declaration spells by their names. -/
inductive Collection where
  | set
  | map

def Collection.word : Collection → String
  | set => "Set"
  | map => "Map"

example (element : Spelling) :
    (Spelling.set element).text = Collection.set.word ++ "<" ++ element.text ++ ">" := by
  rfl

example (key value : Spelling) :
    (Spelling.map key value).text =
      Collection.map.word ++ "<" ++ key.text ++ ", " ++ value.text ++ ">" := by
  rfl

namespace Spelling

mutual

/-- The sets and maps in a type, from left to right. -/
def collections : Spelling → List Collection
  | set element => .set :: element.collections
  | map key value => .map :: (key.collections ++ value.collections)
  | declared _ args => collectionsOfAll args
  | array element | nullable element => element.collections
  | primitive _ | unknown | var _ => []

def collectionsOfAll : List Spelling → List Collection
  | [] => []
  | spelling :: rest => spelling.collections ++ collectionsOfAll rest

end

end Spelling

/-- A set or map as a declaration spells it, and the type parameters of the method around it. -/
structure CollectionUse where
  collection : Collection
  methodParameters : List String

namespace CollectionUse

def word (use : CollectionUse) : String :=
  use.collection.word

/-- A reference that a script cannot tell from the name of a set or map. -/
def reference (use : CollectionUse) : Reference :=
  ⟨use.word, use.methodParameters⟩

end CollectionUse

def TypeParameter.collections (parameters : List TypeParameter) : List Collection :=
  (parameters.filterMap (·.bound)).flatMap (·.collections)

def Entry.collections : Entry → List CollectionUse
  | .discriminant _ _ => []
  | .property _ type _ _ => type.collections.map (⟨·, []⟩)
  | .method _ generics parameters result _ _ =>
    (result.collections ++ TypeParameter.collections generics ++
      parameters.flatMap (·.2.collections)).map (⟨·, generics.map (·.name)⟩)

/-- The sets and maps in a declaration. -/
def Shape.collections : Shape → List CollectionUse
  | constants _ => []
  | union generics variants =>
    (TypeParameter.collections generics ++ variants.flatMap (·.collections)).map (⟨·, []⟩)
  | object generics _ parents entries =>
    (TypeParameter.collections generics).map (⟨·, []⟩) ++ entries.flatMap (·.collections) ++
      (parents.flatMap (·.collections)).map (⟨·, []⟩)

namespace CollectionUse

variable (use : CollectionUse)

theorem path_word : Name.path use.word = [use.word] := by
  rw [word]
  cases use.collection <;> decide

theorem head_reference : use.reference.head = use.word := by
  rw [Reference.head, reference, path_word, List.head?_cons, Option.getD_some]

end CollectionUse

namespace DeclarationUnit

variable {unit : DeclarationUnit} {enclosing parameters : List String}

/-- The namespace where a name is found has a type of it, unless no namespace around it has one. -/
theorem at?_home_eq_none_iff {head : String} :
    unit.at? (unit.home enclosing head ++ [head]) = none ↔
      ∀ outside, outside <+: enclosing → unit.at? (outside ++ [head]) = none := by
  rw [home]
  cases found : enclosing.inits.reverse.find? fun outside =>
      (unit.at? (outside ++ [head])).isSome with
  | none =>
    have absent : ∀ outside, outside <+: enclosing → unit.at? (outside ++ [head]) = none := by
      intro outside inside
      have missed := List.find?_eq_none.1 found outside (by simpa using inside)
      simpa using missed
    exact iff_of_true (absent [] (List.nil_prefix)) absent
  | some home =>
    have inside : home <+: enclosing := by
      simpa using List.mem_of_find?_eq_some found
    have present : unit.at? (home ++ [head]) ≠ none := by
      simpa [Option.isSome_iff_ne_none] using List.find?_some found
    exact iff_of_false present fun absent => present (absent home inside)

/-- The name of a set or map is taken for the one that every script has when it is no type parameter
in scope, and no type around it or at top level. -/
theorem meaning?_reference_eq_none_iff {use : CollectionUse} :
    unit.meaning? enclosing parameters use.reference = none ↔
      use.word ∉ use.methodParameters ∧ use.word ∉ parameters ∧
        ∀ outside, outside <+: enclosing → unit.at? (outside ++ [use.word]) = none := by
  rw [meaning?, use.head_reference]
  by_cases ofMethod : use.word ∈ use.methodParameters
  · simp [CollectionUse.reference, ofMethod]
  by_cases ofType : use.word ∈ parameters
  · simp [CollectionUse.reference, ofMethod, ofType]
  · rw [← at?_home_eq_none_iff]
    simp [CollectionUse.reference, ofMethod, ofType, use.path_word]

end DeclarationUnit

namespace TypeGraph

variable {graph : TypeGraph} {config : EmitConfig} {order : EmissionOrder} {unit : DeclarationUnit}
  {node : Node} {use : CollectionUse}

/-- A declaration with a set or map in it has the type parameters of its type. -/
theorem parameters_draw_of_mem (spelled : use ∈ (graph.draw config node).1.collections) :
    (graph.draw config node).1.parameters = node.generics.map (·.name) := by
  obtain ⟨members, parents, -, -, drawn⟩ := graph.drawObject_eq config node
  unfold draw at spelled ⊢
  split at spelled
  · cases spelled
  · next notEnum =>
    rw [if_neg notEnum]
    split
    · exact map_name_typeParameters _ _
    · rw [drawn]
      exact map_name_typeParameters _ _

section

variable (ordered : graph.emissionOrder = .ok order)
  (declared : graph.declareAll config order = .ok unit)
include ordered declared

theorem at?_eq_none_iff {path : List String} :
    unit.at? path = none ↔ ∀ name ∈ graph.names, Name.path name ≠ path := by
  have perm := map_qualified_perm ordered declared
  simp only [DeclarationUnit.at?, List.find?_eq_none, beq_iff_eq, ← perm.mem_iff,
    List.forall_mem_map]

/-- Every set or map in a declaration is the one that every script has exactly when its name is no
type parameter of the method around it or of the type, and no type of the graph has this name in a
namespace around the declaration or at top level. -/
theorem collections_global_iff :
    ∀ declaration ∈ unit.declarations, ∃ node ∈ graph.nodes, ∃ warnings,
      graph.declare config declaration.group node = .ok (declaration, warnings) ∧
      ∀ use ∈ (graph.draw config node).1.collections,
        (unit.meaning? (Name.path node.name).dropLast (graph.draw config node).1.parameters
            use.reference = none ↔
          use.word ∉ use.methodParameters ∧ use.word ∉ node.generics.map (·.name) ∧
            ∀ outside, outside <+: (Name.path node.name).dropLast →
              ∀ name ∈ graph.names, Name.path name ≠ outside ++ [use.word]) := by
  intro declaration member
  obtain ⟨node, known, warnings, succeeds⟩ := exists_declare declared member
  refine ⟨node, known, warnings, succeeds, fun use spelled => ?_⟩
  rw [DeclarationUnit.meaning?_reference_eq_none_iff, parameters_draw_of_mem spelled]
  simp only [at?_eq_none_iff ordered declared]

end

end TypeGraph

/-- The declared types with what the name of each set and map in them is taken for. -/
def TypeGraph.collectionMeanings (graph : TypeGraph) (unit : DeclarationUnit) :
    List (String × List (String × Option Meaning)) :=
  graph.nodes.map fun node =>
    let shape := (graph.draw Config.plainEmit node).1
    (node.name, shape.collections.map fun use =>
      (use.word, unit.meaning? (Name.path node.name).dropLast shape.parameters use.reference))

/-- A type inside another one, with a field for a set of texts. -/
def taggedType : HostType :=
  { Snapshot.plainType with
    name := "p.A$I"
    members := [
      { Snapshot.plainMember with
        name := "tags"
        type := .named "java.util.Set" [.named "String" []] }] }

/-- A type named `Set` inside the one with the field, which does not see it. -/
def insideModel : HostModel where
  types := [taggedType, { Snapshot.plainType with name := "p.A$I$Set" }]
  distinct := by decide

theorem insideModel_global :
    ∃ graph order unit,
      (HostView.mk insideModel ⟨["p"]⟩).closure ["p.A$I", "p.A$I$Set"] = .ok graph ∧
      graph.emissionOrder = .ok order ∧ graph.declareAll Config.plainEmit order = .ok unit ∧
      graph.collectionMeanings unit =
        [("p.A$I", [("Set", none)]), ("p.A$I$Set", [])] ∧
      ∀ declaration ∈ unit.declarations, ∃ node ∈ graph.nodes, ∃ warnings,
        graph.declare Config.plainEmit declaration.group node = .ok (declaration, warnings) ∧
        ∀ use ∈ (graph.draw Config.plainEmit node).1.collections,
          (unit.meaning? (Name.path node.name).dropLast
              (graph.draw Config.plainEmit node).1.parameters use.reference = none ↔
            use.word ∉ use.methodParameters ∧ use.word ∉ node.generics.map (·.name) ∧
              ∀ outside, outside <+: (Name.path node.name).dropLast →
                ∀ name ∈ graph.names, Name.path name ≠ outside ++ [use.word]) := by
  have evaluated : DeclarationUnit.read? TypeGraph.collectionMeanings
      ⟨insideModel, ⟨["p"]⟩⟩ ["p.A$I", "p.A$I$Set"] =
      some [("p.A$I", [("Set", none)]), ("p.A$I$Set", [])] := by
    cbv
  obtain ⟨graph, order, unit, closed, ordered, declared, table⟩ :=
    DeclarationUnit.exists_of_read? evaluated
  exact ⟨graph, order, unit, closed, ordered, declared, table,
    TypeGraph.collections_global_iff ordered declared⟩

/-- A type named `Set` next to the one with the field. -/
def besideModel : HostModel where
  types := [taggedType, { Snapshot.plainType with name := "p.A$Set" }]
  distinct := by decide

/-- Every stage succeeds, and the type of the field is not the set that every script has. -/
theorem besideModel_captured :
    ∃ graph order unit,
      (HostView.mk besideModel ⟨["p"]⟩).closure ["p.A$I", "p.A$Set"] = .ok graph ∧
      graph.emissionOrder = .ok order ∧ graph.declareAll Config.plainEmit order = .ok unit ∧
      ∃ node ∈ graph.nodes, node.name ∈ unit.declarations.map (·.qualified) ∧
        ∃ use ∈ (graph.draw Config.plainEmit node).1.collections,
          unit.meaning? (Name.path node.name).dropLast
              (graph.draw Config.plainEmit node).1.parameters use.reference =
            some (.declaration "p.A$Set") := by
  have evaluated : DeclarationUnit.read? TypeGraph.collectionMeanings
      ⟨besideModel, ⟨["p"]⟩⟩ ["p.A$I", "p.A$Set"] =
      some [("p.A$I", [("Set", some (.declaration "p.A$Set"))]), ("p.A$Set", [])] := by
    cbv
  obtain ⟨graph, order, unit, closed, ordered, declared, table⟩ :=
    DeclarationUnit.exists_of_read? evaluated
  have entry : ("p.A$I", [("Set", some (Meaning.declaration "p.A$Set"))]) ∈
      graph.collectionMeanings unit := by
    rw [table]
    exact List.mem_cons_self
  obtain ⟨node, known, same⟩ := List.mem_map.1 entry
  obtain ⟨use, single, meaning⟩ := List.map_eq_singleton_iff.1 (Prod.mk.inj same).2
  have written := (TypeGraph.map_qualified_perm ordered declared).mem_iff.2
    (List.mem_map_of_mem known)
  refine ⟨graph, order, unit, closed, ordered, declared, node, known, written, use, ?_,
    (Prod.mk.inj meaning).2⟩
  rw [single]
  exact List.mem_cons_self

end TypeBridge
