import Mathlib.Data.List.Chain
import TypeBridge.Proofs.EmissionTopology
import TypeBridge.Proofs.WalkReachability

/-!
# Chains of supertypes

A type is assignable to another one exactly when a chain of direct supertypes leads from the one to
the other.  Every name on the chain is known, but the last one need not be.  The search for a chain
ends whatever cycles there are, after no more looks than there are direct supertypes, and two.
-/

namespace TypeBridge

open Relation

/-- A chain of steps from one name to another, with all names but the last one inside of a list. -/
structure IsChain (step : String → String → Prop) (inside : List String) (first last : String)
    (chain : List String) : Prop where
  head : chain.head? = some first
  getLast : chain.getLast? = some last
  mem_inside : ∀ name ∈ chain.dropLast, name ∈ inside
  steps : chain.IsChain step

theorem mem_dropLast_of_isChain {step : String → String → Prop} {inside chain : List String}
    (leaves : ∀ a b, step a b → a ∈ inside) (steps : chain.IsChain step) :
    ∀ name ∈ chain.dropLast, name ∈ inside := by
  induction steps with
  | nil => simp
  | singleton name => simp
  | cons_cons step _ ih =>
    intro name listed
    rw [List.dropLast_cons_cons, List.mem_cons] at listed
    rcases listed with rfl | further
    · exact leaves _ _ step
    · exact ih name further

/-- Where steps start inside of a list only, chains are what steps lead to. -/
theorem exists_isChain_iff {step : String → String → Prop} {inside : List String}
    (leaves : ∀ a b, step a b → a ∈ inside) {first last : String} :
    (∃ chain, IsChain step inside first last chain) ↔ ReflTransGen step first last := by
  constructor
  · rintro ⟨chain, head, getLast, -, steps⟩
    obtain ⟨rest, rfl⟩ := List.head?_eq_some_iff.1 head
    rw [List.getLast?_eq_some_getLast (List.cons_ne_nil first rest), Option.some.injEq] at getLast
    exact List.relationReflTransGen_of_exists_isChain_cons rest steps getLast
  · intro path
    obtain ⟨rest, steps, getLast⟩ := List.exists_isChain_cons_of_relationReflTransGen path
    refine ⟨first :: rest, rfl, ?_, mem_dropLast_of_isChain leaves steps, steps⟩
    rw [List.getLast?_eq_some_getLast (List.cons_ne_nil first rest), getLast]

/-- With distinct keys, what the keys find are the elements. -/
theorem Search.map_find?_keys {α β : Type} {key : α → String} {elements : List α}
    (distinct : (elements.map key).Nodup) (value : Option α → β) :
    ((elements.map key).map fun wanted => value (elements.find? (key · == wanted))) =
      elements.map fun element => value (some element) := by
  rw [List.map_map]
  refine List.map_congr_left fun element known => ?_
  rw [Function.comp_apply, (find?_key_eq_some_iff distinct).2 ⟨known, rfl⟩]

namespace TypeGraph

variable {graph : TypeGraph} {sub super : String}

theorem mem_names_of_extends (above : graph.Extends sub super) : sub ∈ graph.names := by
  rw [← goesOn_supertypeNames] at above
  exact above.1

theorem isAssignable_iff_exists_isChain :
    graph.isAssignable sub super = true ↔
      ∃ chain, IsChain graph.Extends graph.names sub super chain := by
  rw [isAssignable_iff, exists_isChain_iff fun _ _ => mem_names_of_extends]

/-- The answer whether a type is assignable to another one, for a search that may take some number
of looks. -/
def isAssignableWithin? (graph : TypeGraph) (looks : Nat) (sub super : String) : Option Bool :=
  (Search.Walk.mk [sub] []).within graph.supertypeNames graph.names super looks

theorem isAssignableWithin?_eq :
    graph.isAssignableWithin? ((graph.nodes.map (·.supertypeNames.length)).sum + 2) sub super =
      some (graph.isAssignable sub super) := by
  have counted := Search.map_find?_keys graph.distinct
    fun found => ((found.map (·.supertypeNames)).getD []).length
  rw [isAssignableWithin?, isAssignable, ← Search.within_eq_reaches]
  exact congrArg (fun counts => Search.Walk.within _ _ _ (List.sum counts + 2) _) counted.symm

end TypeGraph

namespace HostModel

variable {model : HostModel} {sub super : String}

theorem mem_names_of_extends (above : model.Extends sub super) : sub ∈ model.names := by
  rw [← goesOn_supertypeNames] at above
  exact above.1

theorem isAssignable_iff_exists_isChain :
    model.isAssignable sub super = true ↔
      ∃ chain, IsChain model.Extends model.names sub super chain := by
  rw [isAssignable_iff, exists_isChain_iff fun _ _ => mem_names_of_extends]

/-- The answer whether a type is assignable to another one, for a search that may take some number
of looks. -/
def isAssignableWithin? (model : HostModel) (looks : Nat) (sub super : String) : Option Bool :=
  (Search.Walk.mk [sub] []).within model.supertypeNames model.names super looks

theorem isAssignableWithin?_eq :
    model.isAssignableWithin? ((model.types.map (·.supertypeNames.length)).sum + 2) sub super =
      some (model.isAssignable sub super) := by
  have counted := Search.map_find?_keys model.distinct
    fun found => ((found.map (·.supertypeNames)).getD []).length
  rw [isAssignableWithin?, isAssignable, ← Search.within_eq_reaches]
  exact congrArg (fun counts => Search.Walk.within _ _ _ (List.sum counts + 2) _) counted.symm

end HostModel

/-- In a type graph and in a host model a name is assignable to another one exactly when a chain of
direct supertypes joins them, whose names but the last are known.  The search for it ends after no
more looks than there are direct supertypes, and two.  So assignability is reflexive and transitive,
and the subtypes of a name are the other names of the graph that are assignable to it, each once, in
the order of the graph. -/
theorem assignable_iff_chain (graph : TypeGraph) (model : HostModel) :
    (∀ sub super,
      (graph.isAssignable sub super = true ↔
        ∃ chain, IsChain graph.Extends graph.names sub super chain) ∧
      graph.isAssignableWithin? ((graph.nodes.map (·.supertypeNames.length)).sum + 2) sub super =
        some (graph.isAssignable sub super)) ∧
    (∀ sub super,
      (model.isAssignable sub super = true ↔
        ∃ chain, IsChain model.Extends model.names sub super chain) ∧
      model.isAssignableWithin? ((model.types.map (·.supertypeNames.length)).sum + 2) sub super =
        some (model.isAssignable sub super)) ∧
    (∀ name, graph.isAssignable name name = true ∧ model.isAssignable name name = true) ∧
    (∀ a b c,
      (graph.isAssignable a b = true → graph.isAssignable b c = true →
        graph.isAssignable a c = true) ∧
      (model.isAssignable a b = true → model.isAssignable b c = true →
        model.isAssignable a c = true)) ∧
    ∀ target, (graph.subtypesOf target).Sublist graph.names ∧ (graph.subtypesOf target).Nodup ∧
      ∀ name, name ∈ graph.subtypesOf target ↔
        name ∈ graph.names ∧ name ≠ target ∧ graph.isAssignable name target = true := by
  refine ⟨fun sub super => ?_, fun sub super => ?_, fun name => ?_, fun a b c => ?_,
    fun target => ?_⟩
  · exact ⟨TypeGraph.isAssignable_iff_exists_isChain, TypeGraph.isAssignableWithin?_eq⟩
  · exact ⟨HostModel.isAssignable_iff_exists_isChain, HostModel.isAssignableWithin?_eq⟩
  · exact ⟨TypeGraph.isAssignable_iff.2 .refl, HostModel.isAssignable_iff.2 .refl⟩
  · simp only [TypeGraph.isAssignable_iff, HostModel.isAssignable_iff]
    exact ⟨ReflTransGen.trans, ReflTransGen.trans⟩
  · refine ⟨TypeGraph.subtypesOf_sublist, graph.distinct.sublist TypeGraph.subtypesOf_sublist,
      fun name => ?_⟩
    rw [TypeGraph.mem_subtypesOf_iff, TypeGraph.isAssignable_iff]

/-- Two types that extend each other.  One of them extends a type that is missing. -/
def mutualGraph : TypeGraph where
  nodes := [TypeGraph.bareNode "A" ["B"] [], TypeGraph.bareNode "B" ["A", "C"] []]
  distinct := by simp [TypeGraph.bareNode]

def mutualModel : HostModel where
  types := [
    { Snapshot.plainType with name := "A", supertypes := [.named "B" []] },
    { Snapshot.plainType with name := "B", supertypes := [.named "A" [], .named "C" []] }]
  distinct := (by decide : ["A", "B"].Nodup)

/-- The missing type can be reached from both, and the cycle does not hold the search up. -/
theorem mutualGraph_assignable :
    mutualGraph.isAssignable "A" "B" = true ∧ mutualGraph.isAssignable "B" "C" = true ∧
      mutualGraph.isAssignable "A" "C" = true ∧
      mutualModel.isAssignable "A" "B" = true ∧ mutualModel.isAssignable "B" "C" = true ∧
      mutualModel.isAssignable "A" "C" = true ∧
      mutualGraph.isAssignableWithin? 5 "A" "D" = some false := by
  obtain ⟨inGraph, -, -, further, -⟩ := assignable_iff_chain mutualGraph mutualModel
  have first : mutualGraph.isAssignable "A" "B" = true := by cbv
  have second : mutualGraph.isAssignable "B" "C" = true := by cbv
  have first' : mutualModel.isAssignable "A" "B" = true := by cbv
  have second' : mutualModel.isAssignable "B" "C" = true := by cbv
  refine ⟨first, second, (further _ _ _).1 first second, first', second',
    (further _ _ _).2 first' second', ?_⟩
  have missed : mutualGraph.isAssignable "A" "D" = false := by cbv
  exact (inGraph "A" "D").2.trans (congrArg some missed)

end TypeBridge
