import Mathlib.Data.List.Basic
import Mathlib.Data.List.Nodup
import Mathlib.Data.List.Pairwise
import TypeBridge.Proofs.ComponentLayers

/-!
# The component search is correct

Every step of a component search keeps its stack in layers and its found components settled.  An
open vertex that ends with its own number has edges to its layer and to earlier components only, so
its layer is a component.
-/

namespace TypeBridge.Search

open Relation

variable {α : Type} [DecidableEq α] {next : α → List α} {vertices : List α}

namespace ComponentSearch

/-- The number of an entered vertex. -/
def number (search : ComponentSearch α) (v : α) : Nat :=
  (search.number? v).getD 0

/-- A neighbour is entered, and one that still waits has no lesser number than `low`. -/
def Accounted (search : ComponentSearch α) (low : Nat) (w : α) : Prop :=
  w ∈ search.entered ∧ (w ∈ search.stack → low ≤ search.number w)

theorem Accounted.antitone {search : ComponentSearch α} (low low' : Nat) (w : α)
    (lower : low' ≤ low) (known : search.Accounted low w) : search.Accounted low' w :=
  ⟨known.1, fun waiting => Nat.le_trans lower (known.2 waiting)⟩

/-- What holds of a search at any time. -/
structure Sound (next : α → List α) (vertices : List α) (search : ComponentSearch α) : Prop where
  inside : ∀ v ∈ search.entered, v ∈ vertices
  number_lt : ∀ v ∈ search.entered, search.number v < search.numbers.length
  mem_entered_iff : ∀ v, v ∈ search.entered ↔ v ∈ search.stack ∨ v ∈ search.found.flatten
  apart : ∀ v ∈ search.stack, v ∉ search.found.flatten
  descending : search.stack.Pairwise fun a b => search.number b < search.number a
  layered : Layered next vertices search.number search.Accounted search.path search.stack
  settled : Settled next vertices search.found

theorem sound_start : Sound next vertices (start : ComponentSearch α) where
  inside := by simp [start, entered]
  number_lt := by simp [start, entered]
  mem_entered_iff := by simp [start, entered]
  apart := by simp [start]
  descending := .nil
  layered := .nil
  settled := .nil

theorem number?_eq_some_number {search : ComponentSearch α} {v : α} (known : v ∈ search.entered) :
    search.number? v = some (search.number v) := by
  cases met : search.number? v with
  | none => exact absurd known (number?_eq_none_iff.1 met)
  | some count => simp [number, met]

theorem mem_entered_of_number? {search : ComponentSearch α} {v : α} {number : Nat}
    (met : search.number? v = some number) : v ∈ search.entered := by
  by_contra fresh
  rw [number?_eq_none_iff.2 fresh] at met
  simp at met

theorem number_enter_self (search : ComponentSearch α) (w : α) :
    (search.enter next w).number w = search.numbers.length := by
  simp [number, number?, enter]

theorem number_enter_of_ne {search : ComponentSearch α} {v w : α} (other : v ≠ w) :
    (search.enter next w).number v = search.number v := by
  have differs : (v == w) = false := by simpa using other
  simp [number, number?, enter, List.lookup_cons, differs]

omit [DecidableEq α] in
theorem entered_enter (search : ComponentSearch α) (w : α) :
    (search.enter next w).entered = w :: search.entered :=
  rfl

namespace Sound

variable {search : ComponentSearch α}

theorem mem_entered_of_mem_stack (sound : Sound next vertices search) {v : α}
    (waiting : v ∈ search.stack) : v ∈ search.entered :=
  (sound.mem_entered_iff v).2 (Or.inl waiting)

/-- Nothing waits when no vertex is open. -/
theorem stack_eq_nil (sound : Sound next vertices search) (closed : search.path = []) :
    search.stack = [] := by
  have layered := sound.layered
  rw [closed] at layered
  exact layered.stack_eq_nil

/-- Only the path changes. -/
theorem withPath (sound : Sound next vertices search) {path : List (OpenVertex α)}
    (layered : Layered next vertices search.number search.Accounted path search.stack) :
    Sound next vertices { search with path := path } where
  inside := sound.inside
  number_lt := sound.number_lt
  mem_entered_iff := sound.mem_entered_iff
  apart := sound.apart
  descending := sound.descending
  layered := layered
  settled := sound.settled

/-- Entering a fresh vertex puts a layer of its own on top of the others. -/
theorem enter (sound : Sound next vertices search) {w : α} {path : List (OpenVertex α)}
    (fresh : w ∉ search.entered) (known : w ∈ vertices)
    (entrance : ∀ parent ∈ path.head?, Edge next vertices parent.vertex w)
    (layered : Layered next vertices search.number
      (fun low u => search.Accounted low u ∨ low ≤ search.numbers.length ∧ u = w)
      path search.stack) :
    Sound next vertices (({ search with path := path }).enter next w) := by
  have notWaiting : w ∉ search.stack := fun waiting =>
    fresh (sound.mem_entered_of_mem_stack waiting)
  have sameNumber : ∀ x ∈ search.entered,
      (({ search with path := path }).enter next w).number x = search.number x := by
    intro x entered
    exact number_enter_of_ne fun same => fresh (same ▸ entered)
  have newNumber : (({ search with path := path }).enter next w).number w =
      search.numbers.length :=
    number_enter_self _ w
  refine
    { inside := ?_
      number_lt := ?_
      mem_entered_iff := ?_
      apart := ?_
      descending := ?_
      layered := ?_
      settled := sound.settled }
  · intro v entered
    rcases List.mem_cons.1 entered with rfl | old
    · exact known
    · exact sound.inside v old
  · intro v entered
    change _ < search.numbers.length + 1
    rcases List.mem_cons.1 entered with rfl | old
    · rw [newNumber]
      exact Nat.lt_succ_self _
    · rw [sameNumber v old]
      exact Nat.lt_succ_of_lt (sound.number_lt v old)
  · intro v
    rw [entered_enter]
    change v ∈ w :: search.entered ↔ v ∈ w :: search.stack ∨ v ∈ search.found.flatten
    rw [List.mem_cons, List.mem_cons, sound.mem_entered_iff v, or_assoc]
  · intro v waiting
    rcases List.mem_cons.1 waiting with rfl | old
    · exact fun found => fresh ((sound.mem_entered_iff v).2 (Or.inr found))
    · exact sound.apart v old
  · refine List.pairwise_cons.2 ⟨?_, ?_⟩
    · intro v waiting
      have entered := sound.mem_entered_of_mem_stack waiting
      rw [newNumber, sameNumber v entered]
      exact sound.number_lt v entered
    · apply sound.descending.imp_of_mem
      intro a b first second less
      rwa [sameNumber a (sound.mem_entered_of_mem_stack first),
        sameNumber b (sound.mem_entered_of_mem_stack second)]
  · have top : Layer next vertices (({ search with path := path }).enter next w).number
        (({ search with path := path }).enter next w).Accounted
        ⟨w, search.numbers.length, next w⟩ [] search.stack := by
      rw [← newNumber]
      exact .ofFresh
    refine Layered.cons top entrance (layered.mono ?_ ?_)
    · intro x waiting
      exact sameNumber x (sound.mem_entered_of_mem_stack waiting)
    · rintro frame - u (⟨entered, low_le⟩ | ⟨bounded, rfl⟩)
      · refine ⟨List.mem_cons_of_mem _ entered, fun waiting => ?_⟩
        rw [sameNumber u entered]
        refine low_le ((List.mem_cons.1 waiting).resolve_left ?_)
        exact fun same => fresh (same ▸ entered)
      · refine ⟨List.mem_cons_self, fun _ => ?_⟩
        rwa [newNumber]

/-- A look at a neighbour of the innermost open vertex. -/
theorem look (sound : Sound next vertices search) {v w : α} {low : Nat} {ahead : List α}
    {outer : List (OpenVertex α)} (inner : search.path = ⟨v, low, w :: ahead⟩ :: outer) :
    Sound next vertices (search.step next vertices) := by
  have layered := sound.layered
  rw [inner] at layered
  obtain ⟨above, below, stackEq, layer, entrance, rest⟩ := layered.exists_layer
  have notLater : low ≤ search.numbers.length := by
    have waiting : v ∈ search.stack := by simp [stackEq]
    have := sound.number_lt v (sound.mem_entered_of_mem_stack waiting)
    have := layer.low_le
    dsimp only at this
    omega
  unfold ComponentSearch.step
  rw [inner]
  dsimp only
  cases met : search.number? w with
  | none =>
    dsimp only
    split
    · next known =>
      refine sound.enter (number?_eq_none_iff.1 met) known ?_ ?_
      · rintro parent ⟨⟩
        exact ⟨layer.ahead_subset w List.mem_cons_self, known⟩
      · rw [stackEq]
        refine .cons (layer.look (Nat.le_refl _) (fun u account => Or.inl account)
          (fun _ => Or.inr ⟨notLater, rfl⟩) layer.low_met) entrance ?_
        exact rest.mono (fun _ _ => rfl) fun _ _ u account => Or.inl account
    · next unknown =>
      apply sound.withPath
      rw [stackEq]
      exact .cons (layer.look (Nat.le_refl _) (fun u account => account)
        (fun edge => absurd edge.2 unknown) layer.low_met) entrance rest
  | some count =>
    have entered := mem_entered_of_number? met
    have numbered : search.number w = count := by simp [number, met]
    apply sound.withPath
    rw [stackEq]
    refine .cons (layer.look ?_ ?_ ?_ ?_) entrance rest
    · split
      · exact Nat.min_le_left _ _
      · exact Nat.le_refl _
    · intro u account
      refine Accounted.antitone _ _ u ?_ account
      split
      · exact Nat.min_le_left _ _
      · exact Nat.le_refl _
    · refine fun _ => ⟨entered, fun waiting => ?_⟩
      rw [← stackEq, if_pos waiting, numbered]
      exact Nat.min_le_right _ _
    · rw [← stackEq]
      by_cases waiting : w ∈ search.stack
      · rw [if_pos waiting]
        rcases Nat.le_total low count with less | less
        · rw [Nat.min_eq_left less, stackEq]
          exact layer.low_met
        · rw [Nat.min_eq_right less]
          have edge : Edge next vertices v w :=
            ⟨layer.ahead_subset w List.mem_cons_self, sound.inside w entered⟩
          exact ⟨w, waiting, numbered, .single edge⟩
      · rw [if_neg waiting, stackEq]
        exact layer.low_met

/-- Numbers go down the stack. -/
theorem number_lt_and_lt (sound : Sound next vertices search) {v : α} {above below : List α}
    (stackEq : search.stack = above ++ v :: below) :
    (∀ x ∈ above, search.number v < search.number x) ∧
      ∀ x ∈ below, search.number x < search.number v := by
  have descending := sound.descending
  rw [stackEq] at descending
  obtain ⟨_, lowerPart, crossing⟩ := List.pairwise_append.1 descending
  exact ⟨fun x inner => crossing x inner v List.mem_cons_self, (List.pairwise_cons.1 lowerPart).1⟩

omit [DecidableEq α] in
theorem lower_eq_self {low : Nat} {path : List (OpenVertex α)}
    (least : ∀ frame ∈ path.head?, frame.low ≤ low) : lower low path = path := by
  cases path with
  | nil => rfl
  | cons frame outer => rw [lower, Nat.min_eq_left (least frame rfl)]

/-- A component is what stands on the stack down to its first vertex. -/
theorem close_eq {v : α} {above below : List α} (stackEq : search.stack = above ++ v :: below)
    (first : v ∉ above) :
    search.close vertices v =
      { search with
        stack := below
        found := search.found ++ [vertices.filter ((above ++ [v]).contains ·)] } := by
  have position : search.stack.idxOf v = above.length := by
    rw [stackEq, List.idxOf_append_of_notMem first, List.idxOf_cons_self, Nat.add_zero]
  simp only [ComponentSearch.close, position]
  rw [stackEq, List.take_length_add_append, List.drop_length_add_append]
  rfl

/-- The vertices from the top of the stack down to one are the component that closes there. -/
theorem mem_closed_iff (sound : Sound next vertices search) {v : α} {above below : List α}
    (stackEq : search.stack = above ++ v :: below) (x : α) :
    x ∈ vertices.filter ((above ++ [v]).contains ·) ↔ x ∈ v :: above := by
  have known : x ∈ v :: above → x ∈ vertices := by
    intro member
    apply sound.inside
    apply sound.mem_entered_of_mem_stack
    rw [stackEq]
    simp only [List.mem_cons, List.mem_append] at member ⊢
    tauto
  simp only [List.mem_filter, List.contains_iff_mem, List.mem_append, List.mem_cons,
    List.not_mem_nil, or_false] at known ⊢
  tauto

/-- A layer whose open vertex keeps its own number has edges to itself and to earlier components
only. -/
theorem mem_of_edge (sound : Sound next vertices search) {frame : OpenVertex α}
    {above below : List α} (stackEq : search.stack = above ++ frame.vertex :: below)
    (layer : Layer next vertices search.number search.Accounted frame above below)
    (done : frame.ahead = []) (own : frame.low = search.number frame.vertex) {a b : α}
    (member : a ∈ frame.vertex :: above) (edge : Edge next vertices a b) :
    b ∈ frame.vertex :: above ∨ b ∈ search.found.flatten := by
  rcases layer.edges a member b edge with ⟨_, later⟩ | ⟨entered, low_le⟩
  · simp [done] at later
  rcases (sound.mem_entered_iff b).1 entered with waiting | found
  · have atLeast := low_le waiting
    rw [stackEq] at waiting
    rcases List.mem_append.1 waiting with inside | others
    · exact Or.inl (List.mem_cons_of_mem _ inside)
    rcases List.mem_cons.1 others with rfl | under
    · exact Or.inl List.mem_cons_self
    · -- What stands below has a lesser number than the edge is accounted for with.
      have := (sound.number_lt_and_lt stackEq).2 b under
      omega
  · exact Or.inr found

/-- An open vertex that keeps its own number completes a component. -/
theorem close (sound : Sound next vertices search) {frame : OpenVertex α}
    {outer : List (OpenVertex α)} (inner : search.path = frame :: outer)
    (done : frame.ahead = []) (own : frame.low = search.number frame.vertex) :
    Sound next vertices
      (({ search with path := lower frame.low outer }).close vertices frame.vertex) := by
  have layered := sound.layered
  rw [inner] at layered
  obtain ⟨above, below, stackEq, layer, entrance, rest⟩ := layered.exists_layer
  obtain ⟨higher, less⟩ := sound.number_lt_and_lt stackEq
  have first : frame.vertex ∉ above := fun member => Nat.lt_irrefl _ (higher _ member)
  have lowerEq : lower frame.low outer = outer := by
    apply lower_eq_self
    intro parent outside
    have listed := List.mem_of_mem_head? outside
    have := rest.low_le parent listed
    have := less _ (rest.vertex_mem parent listed)
    omega
  have leftEq : { search with path := outer }.stack = above ++ frame.vertex :: below := stackEq
  rw [lowerEq, close_eq leftEq first]
  have mem_component := sound.mem_closed_iff stackEq
  have sublist : (vertices.filter ((above ++ [frame.vertex]).contains ·)).Sublist vertices :=
    List.filter_sublist
  generalize vertices.filter ((above ++ [frame.vertex]).contains ·) = component
    at mem_component sublist ⊢
  have onStack : ∀ x, x ∈ search.stack ↔ x ∈ component ∨ x ∈ below := by
    intro x
    rw [mem_component, stackEq]
    simp only [List.mem_cons, List.mem_append]
    tauto
  have notBelow : ∀ x ∈ component, x ∉ below := by
    intro x member under
    have := less x under
    rcases List.mem_cons.1 ((mem_component x).1 member) with rfl | above
    · omega
    · have := higher x above
      omega
  refine
    { inside := sound.inside
      number_lt := sound.number_lt
      mem_entered_iff := ?_
      apart := ?_
      descending := ?_
      layered := ?_
      settled := ?_ }
  · intro v
    apply (sound.mem_entered_iff v).trans
    simp only [onStack, List.flatten_append, List.flatten_singleton, List.mem_append]
    tauto
  · intro v under
    simp only [List.flatten_append, List.flatten_singleton, List.mem_append, not_or]
    exact ⟨sound.apart v ((onStack v).2 (Or.inr under)), fun member => notBelow v member under⟩
  · have descending := sound.descending
    rw [stackEq] at descending
    exact (List.pairwise_cons.1 (List.pairwise_append.1 descending).2.1).2
  · refine rest.mono (fun _ _ => rfl) fun _ _ u account => ⟨account.1, fun under => ?_⟩
    exact account.2 ((onStack u).2 (Or.inr under))
  · apply sound.settled.push sublist
    · exact List.ne_nil_of_mem ((mem_component frame.vertex).2 List.mem_cons_self)
    · intro a left b right
      exact layer.leads a ((mem_component a).1 left) b ((mem_component b).1 right)
    · intro a member
      exact sound.apart a ((onStack a).2 (Or.inl member))
    · intro a member b edge
      rw [mem_component]
      exact sound.mem_of_edge stackEq layer done own ((mem_component a).1 member) edge

/-- An open vertex that leads back to before it joins the layer of its parent. -/
theorem merge (sound : Sound next vertices search) {frame : OpenVertex α}
    {outer : List (OpenVertex α)} (inner : search.path = frame :: outer)
    (done : frame.ahead = []) (before : frame.low < search.number frame.vertex) :
    Sound next vertices { search with path := lower frame.low outer } := by
  have layered := sound.layered
  rw [inner] at layered
  obtain ⟨above, below, stackEq, layer, entrance, rest⟩ := layered.exists_layer
  obtain ⟨higher, -⟩ := sound.number_lt_and_lt stackEq
  obtain ⟨z, waiting, numbered, reached⟩ := layer.low_met
  have under : z ∈ below := by
    rcases List.mem_append.1 waiting with inside | others
    · have := higher z inside
      omega
    rcases List.mem_cons.1 others with rfl | under
    · omega
    · exact under
  apply sound.withPath
  cases outer with
  | nil => simp [rest.stack_eq_nil] at under
  | cons parent outer =>
    have home := reached.trans (rest.leads_head parent rfl z under)
    obtain ⟨between, further, rfl, parentLayer, parentEntrance, outerRest⟩ := rest.exists_layer
    have joined := layer.merge parentLayer Accounted.antitone (entrance parent rfl) done home
    have stackEq' : search.stack =
        (above ++ frame.vertex :: between) ++ parent.vertex :: further := by
      simp [stackEq]
    rw [stackEq']
    exact .cons joined parentEntrance outerRest

/-- Leaving the innermost open vertex. -/
theorem leave (sound : Sound next vertices search) {frame : OpenVertex α}
    {outer : List (OpenVertex α)} (inner : search.path = frame :: outer)
    (done : frame.ahead = []) : Sound next vertices (search.leave vertices frame outer) := by
  have waiting : frame.vertex ∈ search.stack :=
    sound.layered.vertex_mem frame (by simp [inner])
  have low_le : frame.low ≤ search.number frame.vertex :=
    sound.layered.low_le frame (by simp [inner])
  have numbered : search.number? frame.vertex = some (search.number frame.vertex) :=
    number?_eq_some_number (sound.mem_entered_of_mem_stack waiting)
  simp only [ComponentSearch.leave]
  split
  · next own =>
    have same : search.number? frame.vertex = some frame.low := own
    rw [numbered, Option.some.injEq] at same
    exact sound.close inner done same.symm
  · next other =>
    have differs : search.number? frame.vertex ≠ some frame.low := other
    rw [numbered, ne_eq, Option.some.injEq] at differs
    exact sound.merge inner done (by omega)

/-- Every step keeps the search sound. -/
theorem step (sound : Sound next vertices search) :
    Sound next vertices (search.step next vertices) := by
  cases inner : search.path with
  | nil =>
    unfold ComponentSearch.step
    rwa [inner]
  | cons frame outer =>
    obtain ⟨v, low, ahead⟩ := frame
    cases ahead with
    | nil =>
      unfold ComponentSearch.step
      rw [inner]
      exact sound.leave inner rfl
    | cons w ahead => exact sound.look inner

end Sound

theorem mem_entered_step {search : ComponentSearch α} {v : α} (known : v ∈ search.entered) :
    v ∈ (search.step next vertices).entered := by
  unfold step
  split
  · exact known
  · rwa [entered, numbers_leave]
  · split
    · dsimp only
      split
      · exact List.mem_cons_of_mem _ known
      · exact known
    · exact known

/-- A finished search has no open vertex and has lost nothing that was entered. -/
theorem Sound.finish {search : ComponentSearch α} (sound : Sound next vertices search) :
    Sound next vertices (search.finish next vertices) ∧
      (search.finish next vertices).path = [] ∧
      ∀ v ∈ search.entered, v ∈ (search.finish next vertices).entered := by
  induction search using finish.induct next vertices with
  | case1 search closed =>
    rw [ComponentSearch.finish]
    split
    · exact ⟨sound, closed, fun v known => known⟩
    · next inner => simp [closed] at inner
  | case2 search frame outer inner ih =>
    rw [ComponentSearch.finish]
    split
    · next closed => simp [closed] at inner
    · obtain ⟨kept, closed, grown⟩ := ih sound.step
      exact ⟨kept, closed, fun v known => grown v (mem_entered_step known)⟩

/-- Between visits no vertex is open. -/
theorem Sound.visit {search : ComponentSearch α} (sound : Sound next vertices search)
    (closed : search.path = []) {v : α} (known : v ∈ vertices) :
    Sound next vertices (search.visit next vertices v) ∧
      (search.visit next vertices v).path = [] ∧
      ∀ u ∈ v :: search.entered, u ∈ (search.visit next vertices v).entered := by
  unfold ComponentSearch.visit
  cases met : search.number? v with
  | some number =>
    refine ⟨sound, closed, fun u member => ?_⟩
    rcases List.mem_cons.1 member with rfl | old
    · exact mem_entered_of_number? met
    · exact old
  | none =>
    have opened : Sound next vertices (search.enter next v) := by
      have base : Sound next vertices (({ search with path := [] }).enter next v) :=
        sound.enter (number?_eq_none_iff.1 met) known (by simp)
          (by rw [sound.stack_eq_nil closed]; exact .nil)
      rwa [← closed] at base
    exact opened.finish

/-- Visits of some vertices enter them all. -/
theorem Sound.visits {search : ComponentSearch α} (sound : Sound next vertices search)
    (closed : search.path = []) {roots : List α} (known : ∀ v ∈ roots, v ∈ vertices) :
    Sound next vertices (roots.foldl (ComponentSearch.visit next vertices) search) ∧
      (roots.foldl (ComponentSearch.visit next vertices) search).path = [] ∧
      ∀ v, v ∈ roots ∨ v ∈ search.entered →
        v ∈ (roots.foldl (ComponentSearch.visit next vertices) search).entered := by
  induction roots generalizing search with
  | nil =>
    refine ⟨sound, closed, fun v member => ?_⟩
    simpa using member
  | cons root roots ih =>
    obtain ⟨kept, closed', grown⟩ := sound.visit closed (known root List.mem_cons_self)
    obtain ⟨all, finished, entered⟩ := ih kept closed' fun v member =>
      known v (List.mem_cons_of_mem _ member)
    refine ⟨all, finished, fun v member => entered v ?_⟩
    rcases member with requested | old
    · rcases List.mem_cons.1 requested with rfl | later
      · exact Or.inr (grown v List.mem_cons_self)
      · exact Or.inl later
    · exact Or.inr (grown v (List.mem_cons_of_mem _ old))

end ComponentSearch

/-- The components are settled and hold every vertex. -/
theorem settled_components (next : α → List α) (vertices : List α) :
    Settled next vertices (components next vertices) ∧
      ∀ v ∈ vertices, v ∈ (components next vertices).flatten := by
  have started : ComponentSearch.Sound next vertices .start := ComponentSearch.sound_start
  obtain ⟨sound, closed, entered⟩ := started.visits rfl fun v (known : v ∈ vertices) => known
  refine ⟨sound.settled, fun v known => ?_⟩
  rcases (sound.mem_entered_iff v).1 (entered v (Or.inl known)) with waiting | found
  · rw [sound.stack_eq_nil closed] at waiting
    simp at waiting
  · exact found

namespace Settled

variable {found : List (List α)}

omit [DecidableEq α] in
/-- Of two components one stands first, and nothing leads from it to the other. -/
theorem apart_of_ne (settled : Settled next vertices found) {one other : List α}
    (first : one ∈ found) (second : other ∈ found) (differs : one ≠ other) :
    (∀ a ∈ one, ∀ b ∈ other, ¬Leads next vertices a b) ∨
      ∀ b ∈ other, ∀ a ∈ one, ¬Leads next vertices b a := by
  let Apart (c d : List α) : Prop :=
    (∀ a ∈ c, ∀ b ∈ d, ¬Leads next vertices a b) ∨ ∀ b ∈ d, ∀ a ∈ c, ¬Leads next vertices b a
  have apart : found.Pairwise Apart := settled.ordered.imp fun none => Or.inl none
  have symmetric : Std.Symm Apart := ⟨fun _ _ => Or.symm⟩
  exact apart.forall first second differs

omit [DecidableEq α] in
/-- Two vertices share a component exactly when each leads to the other. -/
theorem eq_iff_leads (settled : Settled next vertices found) {one other : List α} {a b : α}
    (first : one ∈ found) (second : other ∈ found) (left : a ∈ one) (right : b ∈ other) :
    one = other ↔ Leads next vertices a b ∧ Leads next vertices b a := by
  constructor
  · rintro rfl
    exact ⟨settled.connected one first a left b right, settled.connected one first b right a left⟩
  · rintro ⟨forth, back⟩
    by_contra differs
    rcases settled.apart_of_ne first second differs with none | none
    · exact none a left b right forth
    · exact none b right a left back

omit [DecidableEq α] in
theorem nodup_flatten (settled : Settled next vertices found) (distinct : vertices.Nodup) :
    found.flatten.Nodup := by
  refine List.nodup_flatten.2 ⟨fun component known => ?_, ?_⟩
  · exact distinct.sublist (settled.sublist component known)
  · refine settled.ordered.imp fun none a left right => none a left a right .refl

omit [DecidableEq α] in
theorem nodup (settled : Settled next vertices found) : found.Nodup := by
  refine settled.ordered.imp_of_mem fun {one _} known _ none same => ?_
  obtain ⟨a, member⟩ := List.exists_mem_of_ne_nil _ (settled.nonempty one known)
  exact none a member a (same ▸ member) .refl

end Settled

section Components

variable {component : List α}

theorem exists_component (next : α → List α) {v : α} (known : v ∈ vertices) :
    ∃ component ∈ components next vertices, v ∈ component :=
  List.mem_flatten.1 ((settled_components next vertices).2 v known)

theorem sublist_of_component (known : component ∈ components next vertices) :
    component.Sublist vertices :=
  (settled_components next vertices).1.sublist component known

/-- A component holds the vertices that lead to one of its members and back. -/
theorem mem_component_iff (known : component ∈ components next vertices) {a : α}
    (member : a ∈ component) (b : α) :
    b ∈ component ↔ b ∈ vertices ∧ Leads next vertices a b ∧ Leads next vertices b a := by
  have settled := (settled_components next vertices).1
  constructor
  · intro inside
    exact ⟨(sublist_of_component known).mem inside,
      settled.connected component known a member b inside,
      settled.connected component known b inside a member⟩
  · rintro ⟨vertex, forth, back⟩
    obtain ⟨other, known', inside⟩ := exists_component next vertex
    have same := (settled.eq_iff_leads known known' member inside).2 ⟨forth, back⟩
    rwa [same]

end Components

/-- The components partition the vertices. -/
theorem flatten_components_perm (next : α → List α) {vertices : List α}
    (distinct : vertices.Nodup) : (components next vertices).flatten.Perm vertices := by
  obtain ⟨settled, complete⟩ := settled_components next vertices
  apply (List.perm_ext_iff_of_nodup (settled.nodup_flatten distinct) distinct).2
  intro v
  refine ⟨fun member => ?_, complete v⟩
  obtain ⟨component, known, inside⟩ := List.mem_flatten.1 member
  exact (settled.sublist component known).mem inside

end TypeBridge.Search
