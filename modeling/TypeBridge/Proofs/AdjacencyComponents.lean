import Mathlib
import TypeBridge.Proofs.ComponentSearch

/-!
# Components of an adjacency list

A graph whose vertices are the first numbers is given by a row for every vertex, with the vertices
that it has an edge to.  A row may repeat a vertex and may contain its own.  The component search
parts the vertices into the classes of mutual reachability, each class in ascending order, and
behind every other class that it reaches.
-/

namespace TypeBridge.Search

open Relation

/-- The vertices that a vertex has an edge to. -/
def successors (rows : List (List Nat)) (vertex : Nat) : List Nat :=
  rows[vertex]?.getD []

/-- Edges of the rows lead from one vertex to another in any number of steps. -/
abbrev RowsLead (rows : List (List Nat)) : Nat → Nat → Prop :=
  ReflTransGen fun a b => b ∈ successors rows a

/-- The components of the graph with the given rows. -/
def rowComponents (rows : List (List Nat)) : List (List Nat) :=
  components (successors rows) (List.range rows.length)

section Rows

variable {rows : List (List Nat)}

theorem lt_length_of_mem_successors (bounded : ∀ row ∈ rows, ∀ b ∈ row, b < rows.length)
    {a b : Nat} (edge : b ∈ successors rows a) : b < rows.length := by
  unfold successors at edge
  cases found : rows[a]? with
  | none => simp [found] at edge
  | some row =>
    rw [found, Option.getD_some] at edge
    exact bounded row (List.mem_of_getElem? found) b edge

/-- No edge of bounded rows leads out of the graph. -/
theorem leads_iff_rowsLead (bounded : ∀ row ∈ rows, ∀ b ∈ row, b < rows.length) (a b : Nat) :
    Leads (successors rows) (List.range rows.length) a b ↔ RowsLead rows a b := by
  have edges : Edge (successors rows) (List.range rows.length) =
      fun a b => b ∈ successors rows a := by
    ext a b
    constructor
    · intro edge
      exact edge.1
    · intro edge
      exact ⟨edge, List.mem_range.2 (lt_length_of_mem_successors bounded edge)⟩
  rw [Leads, edges]

theorem pairwise_lt_of_mem_rowComponents {component : List Nat}
    (known : component ∈ rowComponents rows) : component.Pairwise (· < ·) := by
  apply List.Pairwise.sublist (sublist_of_component known)
  exact List.pairwise_lt_range

/-- A class of the rows is shared exactly by vertices that lead to each other. -/
theorem exists_shared_iff (bounded : ∀ row ∈ rows, ∀ b ∈ row, b < rows.length) {a b : Nat}
    (first : a < rows.length) (second : b < rows.length) :
    (∃ component ∈ rowComponents rows, a ∈ component ∧ b ∈ component) ↔
      RowsLead rows a b ∧ RowsLead rows b a := by
  rw [← leads_iff_rowsLead bounded, ← leads_iff_rowsLead bounded]
  constructor
  · rintro ⟨component, known, left, right⟩
    exact ((mem_component_iff known left b).1 right).2
  · intro both
    obtain ⟨component, known, member⟩ :=
      exists_component (successors rows) (List.mem_range.2 first)
    have joined := (mem_component_iff known member b).2 ⟨List.mem_range.2 second, both⟩
    exact ⟨component, known, member, joined⟩

end Rows

/-- The components of bounded rows are a partition of the vertices into ascending classes.  Two
vertices share a class exactly when each leads to the other, and no class leads to a later one. -/
theorem components_partition {rows : List (List Nat)}
    (bounded : ∀ row ∈ rows, ∀ b ∈ row, b < rows.length) :
    (rowComponents rows).flatten.Perm (List.range rows.length) ∧
      (∀ component ∈ rowComponents rows, component ≠ [] ∧ component.Pairwise (· < ·)) ∧
      (∀ a < rows.length, ∀ b < rows.length,
        (∃ component ∈ rowComponents rows, a ∈ component ∧ b ∈ component) ↔
          RowsLead rows a b ∧ RowsLead rows b a) ∧
      (rowComponents rows).Pairwise fun earlier later =>
        ∀ a ∈ earlier, ∀ b ∈ later, ¬RowsLead rows a b := by
  have settled := (settled_components (successors rows) (List.range rows.length)).1
  refine ⟨flatten_components_perm _ List.nodup_range, ?_, ?_, ?_⟩
  · intro component known
    exact ⟨settled.nonempty component known, pairwise_lt_of_mem_rowComponents known⟩
  · intro a first b second
    exact exists_shared_iff bounded first second
  · apply settled.ordered.imp
    intro earlier later apart a left b right leads
    exact apart a left b right ((leads_iff_rowsLead bounded a b).2 leads)

/-- Two vertices with edges to each other and a last one with an edge to itself: the vertex that
they reach stands before them. -/
theorem loopedRows_partition :
    (∀ row ∈ [[1], [0, 2], [], [3]], ∀ b ∈ row, b < [[1], [0, 2], [], [3]].length) ∧
      rowComponents [[1], [0, 2], [], [3]] = [[2], [0, 1], [3]] ∧
      RowsLead [[1], [0, 2], [], [3]] 0 1 ∧ RowsLead [[1], [0, 2], [], [3]] 1 0 := by
  have bounded : ∀ row ∈ [[1], [0, 2], [], [3]], ∀ b ∈ row,
      b < [[1], [0, 2], [], [3]].length := by decide
  have found : rowComponents [[1], [0, 2], [], [3]] = [[2], [0, 1], [3]] := by cbv
  refine ⟨bounded, found, ?_⟩
  apply ((components_partition bounded).2.2.1 0 (by decide) 1 (by decide)).1
  rw [found]
  exact ⟨[0, 1], by decide, by decide, by decide⟩

end TypeBridge.Search
