import Mathlib.Data.List.Basic
import Mathlib.Logic.Relation
import TypeBridge.Search.Components

/-!
# The layers of a component search

The stack of a component search has one layer for every open vertex: the vertex itself, and above it
finished vertices that are mutually reachable with it.  Every edge of a layer that was looked at is
accounted for by the least number that its open vertex keeps.
-/

namespace TypeBridge.Search

open Relation

/-- An edge to a vertex of the graph. -/
def Edge {α : Type} (next : α → List α) (vertices : List α) (a b : α) : Prop :=
  b ∈ next a ∧ b ∈ vertices

/-- Edges lead from one vertex to another in any number of steps. -/
abbrev Leads {α : Type} (next : α → List α) (vertices : List α) : α → α → Prop :=
  ReflTransGen (Edge next vertices)

theorem transGen_of_leads {α : Type} {next : α → List α} {vertices : List α} {a b : α}
    (leads : Leads next vertices a b) (differs : a ≠ b) : TransGen (Edge next vertices) a b := by
  apply (reflTransGen_iff_eq_or_transGen.1 leads).resolve_left
  exact fun same => differs same.symm

/-- What is known of an open vertex, the finished vertices above it, and the stack below it. -/
structure Layer {α : Type} (next : α → List α) (vertices : List α) (number : α → Nat)
    (accounted : Nat → α → Prop) (frame : OpenVertex α) (above below : List α) : Prop where
  forth : ∀ x ∈ above, Leads next vertices frame.vertex x
  back : ∀ x ∈ above, Leads next vertices x frame.vertex
  low_le : frame.low ≤ number frame.vertex
  low_met : ∃ z ∈ above ++ frame.vertex :: below,
    number z = frame.low ∧ Leads next vertices frame.vertex z
  edges : ∀ x ∈ frame.vertex :: above, ∀ w, Edge next vertices x w →
    x = frame.vertex ∧ w ∈ frame.ahead ∨ accounted frame.low w
  ahead_subset : ∀ w ∈ frame.ahead, w ∈ next frame.vertex

/-- A stack with one layer for every open vertex, each entered from the one outside of it. -/
inductive Layered {α : Type} (next : α → List α) (vertices : List α) (number : α → Nat)
    (accounted : Nat → α → Prop) : List (OpenVertex α) → List α → Prop
  | nil : Layered next vertices number accounted [] []
  | cons {frame : OpenVertex α} {outer : List (OpenVertex α)} {above below : List α}
      (layer : Layer next vertices number accounted frame above below)
      (entrance : ∀ parent ∈ outer.head?, Edge next vertices parent.vertex frame.vertex)
      (rest : Layered next vertices number accounted outer below) :
      Layered next vertices number accounted (frame :: outer) (above ++ frame.vertex :: below)

section Layers

variable {α : Type} {next : α → List α} {vertices : List α} {number number' : α → Nat}
  {accounted accounted' : Nat → α → Prop}

/-- A layer outlives a change of the search that keeps its numbers and accounts. -/
theorem Layer.mono {frame : OpenVertex α} {above below : List α}
    (layer : Layer next vertices number accounted frame above below)
    (sameNumber : ∀ x ∈ above ++ frame.vertex :: below, number' x = number x)
    (kept : ∀ w, accounted frame.low w → accounted' frame.low w) :
    Layer next vertices number' accounted' frame above below where
  forth := layer.forth
  back := layer.back
  low_le := by
    rw [sameNumber frame.vertex (by simp)]
    exact layer.low_le
  low_met := by
    obtain ⟨z, waiting, numbered, reached⟩ := layer.low_met
    exact ⟨z, waiting, (sameNumber z waiting).trans numbered, reached⟩
  edges := fun x member w edge => (layer.edges x member w edge).imp_right (kept w)
  ahead_subset := layer.ahead_subset

/-- The vertices of a layer lead to each other. -/
theorem Layer.leads {frame : OpenVertex α} {above below : List α}
    (layer : Layer next vertices number accounted frame above below) :
    ∀ a ∈ frame.vertex :: above, ∀ b ∈ frame.vertex :: above, Leads next vertices a b := by
  intro a first b second
  have back : Leads next vertices a frame.vertex := by
    rcases List.mem_cons.1 first with rfl | inside
    · exact .refl
    · exact layer.back a inside
  have forth : Leads next vertices frame.vertex b := by
    rcases List.mem_cons.1 second with rfl | inside
    · exact .refl
    · exact layer.forth b inside
  exact back.trans forth

theorem Layered.mono {path : List (OpenVertex α)} {stack : List α}
    (layered : Layered next vertices number accounted path stack)
    (sameNumber : ∀ x ∈ stack, number' x = number x)
    (kept : ∀ frame ∈ path, ∀ w, accounted frame.low w → accounted' frame.low w) :
    Layered next vertices number' accounted' path stack := by
  induction layered with
  | nil => exact .nil
  | @cons frame outer above below layer entrance rest ih =>
    refine .cons (layer.mono sameNumber (kept frame (by simp))) entrance (ih ?_ ?_)
    · intro x member
      exact sameNumber x (by simp [member])
    · intro parent member
      exact kept parent (by simp [member])

theorem Layered.stack_eq_nil {stack : List α}
    (layered : Layered next vertices number accounted [] stack) : stack = [] := by
  cases layered
  rfl

theorem Layered.exists_layer {frame : OpenVertex α} {outer : List (OpenVertex α)} {stack : List α}
    (layered : Layered next vertices number accounted (frame :: outer) stack) :
    ∃ above below, stack = above ++ frame.vertex :: below ∧
      Layer next vertices number accounted frame above below ∧
      (∀ parent ∈ outer.head?, Edge next vertices parent.vertex frame.vertex) ∧
      Layered next vertices number accounted outer below := by
  cases layered with
  | cons layer entrance rest => exact ⟨_, _, rfl, layer, entrance, rest⟩

/-- The open vertices are on the stack. -/
theorem Layered.vertex_mem {path : List (OpenVertex α)} {stack : List α}
    (layered : Layered next vertices number accounted path stack) :
    ∀ frame ∈ path, frame.vertex ∈ stack := by
  induction layered with
  | nil => simp
  | cons layer entrance rest ih =>
    intro frame member
    rcases List.mem_cons.1 member with rfl | outside
    · simp
    · simp [ih frame outside]

theorem Layered.low_le {path : List (OpenVertex α)} {stack : List α}
    (layered : Layered next vertices number accounted path stack) :
    ∀ frame ∈ path, frame.low ≤ number frame.vertex := by
  induction layered with
  | nil => simp
  | cons layer entrance rest ih =>
    intro frame member
    rcases List.mem_cons.1 member with rfl | outside
    · exact layer.low_le
    · exact ih frame outside

/-- Every waiting vertex leads to the innermost open one. -/
theorem Layered.leads_head {path : List (OpenVertex α)} {stack : List α}
    (layered : Layered next vertices number accounted path stack) :
    ∀ frame ∈ path.head?, ∀ x ∈ stack, Leads next vertices x frame.vertex := by
  induction layered with
  | nil => simp
  | @cons frame outer above below layer entrance rest ih =>
    intro _ innermost x member
    obtain rfl : frame = _ := by simpa using innermost
    rcases List.mem_append.1 member with finished | others
    · exact layer.back x finished
    rcases List.mem_cons.1 others with rfl | under
    · exact .refl
    -- A vertex further down leads to the parent, which has an edge to the innermost vertex.
    cases rest with
    | nil => simp at under
    | cons parentLayer parentEntrance outerRest =>
      exact (ih _ rfl x under).tail (entrance _ rfl)

/-- A vertex that was just entered is a layer of its own. -/
theorem Layer.ofFresh {v : α} {below : List α} :
    Layer next vertices number accounted ⟨v, number v, next v⟩ [] below where
  forth := by simp
  back := by simp
  low_le := Nat.le_refl _
  low_met := ⟨v, by simp, rfl, .refl⟩
  edges := by
    intro x member w edge
    obtain rfl : x = v := by simpa using member
    exact Or.inl ⟨rfl, edge.1⟩
  ahead_subset := fun _ member => member

/-- After a look at a neighbour the least number accounts for it. -/
theorem Layer.look {v w : α} {low low' : Nat} {ahead above below : List α}
    (layer : Layer next vertices number accounted ⟨v, low, w :: ahead⟩ above below)
    (lower : low' ≤ low)
    (kept : ∀ u, accounted low u → accounted' low' u)
    (looked : Edge next vertices v w → accounted' low' w)
    (met : ∃ z ∈ above ++ v :: below, number z = low' ∧ Leads next vertices v z) :
    Layer next vertices number accounted' ⟨v, low', ahead⟩ above below where
  forth := layer.forth
  back := layer.back
  low_le := Nat.le_trans lower layer.low_le
  low_met := met
  edges := by
    intro x member u edge
    rcases layer.edges x member u edge with ⟨rfl, next⟩ | known
    · rcases List.mem_cons.1 next with rfl | later
      · exact Or.inr (looked edge)
      · exact Or.inl ⟨rfl, later⟩
    · exact Or.inr (kept u known)
  ahead_subset := fun u member => layer.ahead_subset u (List.mem_cons_of_mem _ member)

/-- A finished vertex that leads back to its parent joins the parent's layer. -/
theorem Layer.merge {frame parent : OpenVertex α} {above between below : List α}
    (layer : Layer next vertices number accounted frame above (between ++ parent.vertex :: below))
    (outer : Layer next vertices number accounted parent between below)
    (antitone : ∀ low low' w, low' ≤ low → accounted low w → accounted low' w)
    (entrance : Edge next vertices parent.vertex frame.vertex)
    (done : frame.ahead = [])
    (home : Leads next vertices frame.vertex parent.vertex) :
    Layer next vertices number accounted { parent with low := min parent.low frame.low }
      (above ++ frame.vertex :: between) below where
  forth := by
    intro x member
    rcases List.mem_append.1 member with inner | others
    · exact ReflTransGen.head entrance (layer.forth x inner)
    rcases List.mem_cons.1 others with rfl | outside
    · exact .single entrance
    · exact outer.forth x outside
  back := by
    intro x member
    rcases List.mem_append.1 member with inner | others
    · exact (layer.back x inner).trans home
    rcases List.mem_cons.1 others with rfl | outside
    · exact home
    · exact outer.back x outside
  low_le := Nat.le_trans (Nat.min_le_left _ _) outer.low_le
  low_met := by
    rcases Nat.le_total parent.low frame.low with less | less
    · obtain ⟨z, waiting, numbered, reached⟩ := outer.low_met
      refine ⟨z, ?_, by rw [numbered, Nat.min_eq_left less], reached⟩
      rw [List.append_assoc]
      exact List.mem_append_right _ (List.mem_cons_of_mem _ waiting)
    · obtain ⟨z, waiting, numbered, reached⟩ := layer.low_met
      refine ⟨z, ?_, by rw [numbered, Nat.min_eq_right less], reached.head entrance⟩
      simpa using waiting
  edges := by
    intro x member w edge
    have inner : x ∈ frame.vertex :: above → accounted frame.low w := by
      intro own
      rcases layer.edges x own w edge with ⟨_, next⟩ | known
      · simp [done] at next
      · exact known
    have split : x ∈ parent.vertex :: between ∨ x ∈ frame.vertex :: above := by
      simp only [List.mem_cons, List.mem_append] at member ⊢
      tauto
    rcases split with outside | own
    · exact (outer.edges x outside w edge).imp_right
        (antitone _ _ w (Nat.min_le_left _ _))
    · exact Or.inr (antitone _ _ w (Nat.min_le_right _ _) (inner own))
  ahead_subset := outer.ahead_subset

end Layers

/-- Completed components: nothing leads out of them but into earlier ones. -/
structure Settled {α : Type} (next : α → List α) (vertices : List α) (found : List (List α)) :
    Prop where
  closed : ∀ a ∈ found.flatten, ∀ b, Edge next vertices a b → b ∈ found.flatten
  connected : ∀ component ∈ found, ∀ a ∈ component, ∀ b ∈ component, Leads next vertices a b
  ordered : found.Pairwise fun earlier later =>
    ∀ a ∈ earlier, ∀ b ∈ later, ¬Leads next vertices a b
  sublist : ∀ component ∈ found, component.Sublist vertices
  nonempty : ∀ component ∈ found, component ≠ []

namespace Settled

variable {α : Type} {next : α → List α} {vertices : List α} {found : List (List α)}

theorem nil : Settled next vertices [] where
  closed := by simp
  connected := by simp
  ordered := .nil
  sublist := by simp
  nonempty := by simp

theorem closed_leads (settled : Settled next vertices found) {a b : α}
    (member : a ∈ found.flatten) (leads : Leads next vertices a b) : b ∈ found.flatten := by
  induction leads with
  | refl => exact member
  | tail _ edge ih => exact settled.closed _ ih _ edge

/-- A further component has edges to itself and to earlier ones only. -/
theorem push (settled : Settled next vertices found) {component : List α}
    (sublist : component.Sublist vertices) (nonempty : component ≠ [])
    (connected : ∀ a ∈ component, ∀ b ∈ component, Leads next vertices a b)
    (apart : ∀ a ∈ component, a ∉ found.flatten)
    (edges : ∀ a ∈ component, ∀ b, Edge next vertices a b → b ∈ component ∨ b ∈ found.flatten) :
    Settled next vertices (found ++ [component]) where
  closed := by
    intro a member b edge
    rw [List.flatten_append, List.flatten_singleton] at member ⊢
    rcases List.mem_append.1 member with earlier | new
    · exact List.mem_append_left _ (settled.closed a earlier b edge)
    · exact List.mem_append.2 (edges a new b edge).symm
  connected := by
    intro other known
    rcases List.mem_append.1 known with earlier | new
    · exact settled.connected other earlier
    · rwa [List.mem_singleton.1 new]
  ordered := by
    refine List.pairwise_append.2 ⟨settled.ordered, List.pairwise_singleton _ _, ?_⟩
    intro earlier known later new a inside b outside leads
    rw [List.mem_singleton.1 new] at outside
    have reached := settled.closed_leads (List.mem_flatten.2 ⟨earlier, known, inside⟩) leads
    exact apart b outside reached
  sublist := by
    intro other known
    rcases List.mem_append.1 known with earlier | new
    · exact settled.sublist other earlier
    · rwa [List.mem_singleton.1 new]
  nonempty := by
    intro other known
    rcases List.mem_append.1 known with earlier | new
    · exact settled.nonempty other earlier
    · rwa [List.mem_singleton.1 new]

end Settled

end TypeBridge.Search
