import TypeBridge.Proofs.Scheduling
import TypeBridge.Proofs.SupertypePlacement

/-!
# Listings that always take the least

A listing is greedy when each of its elements is the least one that is ready after those before it.
Greedy listings of the same elements are equal, so a schedule depends on what its items wait for
and on nothing else.
-/

namespace TypeBridge

namespace Search

section Picks

variable {α β : Type} {rule : List α → α → Prop} {picked l l' : List α}

/-- Every element is picked by a rule, given the elements picked before. -/
def Picks (rule : List α → α → Prop) : (picked rest : List α) → Prop
  | _, [] => True
  | picked, a :: rest => rule picked a ∧ Picks rule (picked ++ [a]) rest

theorem picks_concat {a : α} :
    Picks rule picked (l ++ [a]) ↔ Picks rule picked l ∧ rule (picked ++ l) a := by
  induction l generalizing picked with
  | nil => simp [Picks]
  | cons b l ih =>
    simp only [List.cons_append, Picks, ih, and_assoc]
    simp

/-- Of two listings by a rule that picks one element at a time, one goes on from the other. -/
theorem Picks.prefix_or_prefix (unique : ∀ picked a b, rule picked a → rule picked b → a = b)
    (first : Picks rule picked l) (second : Picks rule picked l') : l <+: l' ∨ l' <+: l := by
  induction l generalizing picked l' with
  | nil => exact Or.inl List.nil_prefix
  | cons a l ih =>
    cases l' with
    | nil => exact Or.inr List.nil_prefix
    | cons b l' =>
      obtain rfl := unique picked a b first.1 second.1
      rw [List.prefix_cons_inj, List.prefix_cons_inj]
      exact ih first.2 second.2

theorem Picks.eq_of_perm (unique : ∀ picked a b, rule picked a → rule picked b → a = b)
    (first : Picks rule picked l) (second : Picks rule picked l') (perm : l.Perm l') :
    l = l' := by
  rcases first.prefix_or_prefix unique second with before | before
  · exact before.eq_of_length perm.length_eq
  · exact (before.eq_of_length perm.length_eq.symm).symm

/-- A listing by a rule that never picks an element twice has no duplicates. -/
theorem Picks.nodup (fresh : ∀ picked a, rule picked a → a ∉ picked) (picks : Picks rule picked l) :
    l.Nodup ∧ ∀ a ∈ l, a ∉ picked := by
  induction l generalizing picked with
  | nil => simp
  | cons a l ih =>
    obtain ⟨distinct, apart⟩ := ih picks.2
    constructor
    · exact List.nodup_cons.2 ⟨fun again => apart a again (by simp), distinct⟩
    · intro b member
      rcases List.mem_cons.1 member with rfl | behind
      · exact fresh picked b picks.1
      · exact fun before => apart b behind (by simp [before])

theorem Picks.exists_rule {a : α} (picks : Picks rule picked l) (member : a ∈ l) :
    ∃ before, rule before a := by
  induction l generalizing picked with
  | nil => simp at member
  | cons b l ih =>
    rcases List.mem_cons.1 member with rfl | behind
    · exact ⟨picked, picks.1⟩
    · exact ih picks.2 behind

/-- A listing is carried over to another rule, whose elements stand for those of the first. -/
theorem Picks.map {rule' : List β → β → Prop} (f : α → β) (known : α → Prop)
    (knows : ∀ picked a, rule picked a → known a)
    (carries : ∀ picked a, (∀ b ∈ picked, known b) → rule picked a →
      rule' (picked.map f) (f a))
    (before : ∀ b ∈ picked, known b) (picks : Picks rule picked l) :
    Picks rule' (picked.map f) (l.map f) := by
  induction l generalizing picked with
  | nil => exact trivial
  | cons a l ih =>
    obtain ⟨first, rest⟩ := picks
    refine ⟨carries picked a before first, ?_⟩
    have known' : ∀ b ∈ picked ++ [a], known b := by
      intro b member
      rcases List.mem_append.1 member with old | last
      · exact before b old
      · rw [List.mem_singleton.1 last]
        exact knows picked a first
    simpa using ih known' rest

/-- Ready after some elements, and of least rank among all that are. -/
def LeastReady (ready : List α → α → Prop) (rank : α → Nat) (picked : List α) (a : α) : Prop :=
  ready picked a ∧ ∀ b, ready picked b → rank a ≤ rank b

theorem LeastReady.rank_eq {ready : List α → α → Prop} {rank : α → Nat} {a b : α}
    (first : LeastReady ready rank picked a) (second : LeastReady ready rank picked b) :
    rank a = rank b :=
  Nat.le_antisymm (first.2 b second.1) (second.2 a first.1)

end Picks

namespace Schedule

variable {α : Type} {waits : α → α → Bool} {rank : α → Nat} {items : List α}
  {schedule : Schedule α}

/-- An item that is not placed and waits for placed items only. -/
def IsReady (waits : α → α → Bool) (items placed : List α) (item : α) : Prop :=
  item ∈ items ∧ item ∉ placed ∧ ∀ other ∈ items, waits item other = true → other ∈ placed

theorem sorted_enqueue {queue : List α} (item : α)
    (sorted : queue.Pairwise fun a b => rank a ≤ rank b) :
    (enqueue rank queue item).Pairwise fun a b => rank a ≤ rank b := by
  induction queue with
  | nil => exact List.pairwise_singleton _ _
  | cons first rest ih =>
    obtain ⟨least, others⟩ := List.pairwise_cons.1 sorted
    unfold enqueue
    split
    · next before =>
      refine List.pairwise_cons.2 ⟨?_, sorted⟩
      intro b member
      rcases List.mem_cons.1 member with rfl | later
      · omega
      · have := least b later
        omega
    · refine List.pairwise_cons.2 ⟨?_, ih others⟩
      intro b member
      rcases List.mem_cons.1 ((perm_enqueue rest item).mem_iff.1 member) with rfl | later
      · omega
      · exact least b later

theorem sorted_foldl_enqueue (more : List α) {queue : List α}
    (sorted : queue.Pairwise fun a b => rank a ≤ rank b) :
    (more.foldl (enqueue rank) queue).Pairwise fun a b => rank a ≤ rank b := by
  induction more generalizing queue with
  | nil => exact sorted
  | cons item more ih => exact ih (sorted_enqueue item sorted)

variable [DecidableEq α]

/-- What else holds of a scheduling at any time: the ready items are in the order of their ranks,
and so were those that are placed. -/
structure Greedy (waits : α → α → Bool) (rank : α → Nat) (items : List α)
    (schedule : Schedule α) : Prop where
  sorted : schedule.ready.Pairwise fun a b => rank a ≤ rank b
  picks : Picks (LeastReady (IsReady waits items) rank) [] schedule.placed

omit [DecidableEq α] in
theorem greedy_start : Greedy waits rank items (start waits rank items) where
  sorted := sorted_foldl_enqueue _ .nil
  picks := trivial

theorem Greedy.step (sound : Sound waits items schedule)
    (greedy : Greedy waits rank items schedule) :
    Greedy waits rank items (schedule.step waits rank) := by
  unfold Schedule.step
  split
  · exact greedy
  next a ready more =>
  have sorted := greedy.sorted
  rw [more] at sorted
  obtain ⟨least, others⟩ := List.pairwise_cons.1 sorted
  refine ⟨sorted_foldl_enqueue _ others, picks_concat.2 ⟨greedy.picks, ?_, ?_⟩⟩
  · exact (sound.mem_ready_iff a).1 (by simp [more])
  · intro b ready
    have queued := (sound.mem_ready_iff b).2 ready
    rw [more] at queued
    rcases List.mem_cons.1 queued with rfl | later
    · exact Nat.le_refl _
    · exact least b later

theorem greedy_iterate (rank : α → Nat) (distinct : items.Nodup) (n : Nat) :
    Greedy waits rank items ((Schedule.step waits rank)^[n] (start waits rank items)) := by
  induction n with
  | zero => exact greedy_start
  | succ n ih =>
    rw [Function.iterate_succ_apply']
    exact ih.step (sound_iterate rank distinct n)

end Schedule

/-- A schedule always places a ready item of least rank. -/
theorem picks_schedule {α : Type} [DecidableEq α] (waits : α → α → Bool) (rank : α → Nat)
    {items : List α} (distinct : items.Nodup) :
    Picks (LeastReady (Schedule.IsReady waits items) rank) [] (schedule waits rank items) := by
  obtain ⟨n, same, -⟩ :=
    Schedule.exists_iterate_eq_finish waits rank (Schedule.start waits rank items)
  have greedy : Schedule.Greedy waits rank items _ := Schedule.greedy_iterate rank distinct n
  rw [same] at greedy
  exact greedy.picks

end Search

namespace TypeGraph

open Relation Search

namespace Placement

variable {supers : Nat → List Nat} {component : List Nat} {placement : Placement}

/-- A member of a component that is not placed, and whose supertypes of the component are. -/
def Awaits (supers : Nat → List Nat) (component placed : List Nat) (member : Nat) : Prop :=
  member ∈ component ∧ member ∉ placed ∧ isReady supers component placed member = true

/-- What else holds of a placement at any time: the waiting members are in their order, and so were
those that are placed. -/
structure Greedy (supers : Nat → List Nat) (component : List Nat) (placement : Placement) :
    Prop where
  sorted : placement.waiting.Pairwise (· < ·)
  picks : Picks (LeastReady (Awaits supers component) id) [] placement.placed

/-- The first waiting member that is ready is the least one. -/
theorem Sound.leastReady (sound : Sound supers component placement) {member : Nat}
    (distinct : component.Nodup) (sorted : placement.waiting.Pairwise (· < ·))
    (found : placement.waiting.find? (isReady supers component placement.placed) = some member) :
    LeastReady (Awaits supers component) id placement.placed member := by
  obtain ⟨ready, front, back, split, unready⟩ := List.find?_eq_some_iff_append.1 found
  have apart := (List.nodup_append.1 (sound.perm.nodup_iff.2 distinct)).2.2
  have waiting : member ∈ placement.waiting := List.mem_of_find?_eq_some found
  refine ⟨⟨?_, ?_, ready⟩, ?_⟩
  · exact sound.perm.mem_iff.1 (List.mem_append_right _ waiting)
  · exact fun placed => apart member placed member waiting rfl
  · rintro other ⟨inside, unplaced, otherReady⟩
    have late := (List.mem_append.1 (sound.perm.mem_iff.2 inside)).resolve_left unplaced
    rw [split] at late sorted
    rcases List.mem_append.1 late with before | others
    · have notReady := unready other before
      simp [otherReady] at notReady
    · rcases List.mem_cons.1 others with rfl | behind
      · exact Nat.le_refl _
      · have later := (List.pairwise_cons.1 (List.pairwise_append.1 sorted).2.1).1
        exact Nat.le_of_lt (later other behind)

theorem Greedy.step (sound : Sound supers component placement) (distinct : component.Nodup)
    (acyclic : ∀ v, ¬TransGen (fun a b => b ∈ supers a) v v)
    (greedy : Greedy supers component placement) :
    Greedy supers component (placement.step supers component) := by
  by_cases more : placement.waiting = []
  · unfold Placement.step
    rwa [more]
  obtain ⟨member, found, stepEq⟩ := sound.step_eq acyclic more
  rw [stepEq]
  refine ⟨greedy.sorted.sublist List.erase_sublist, picks_concat.2 ⟨greedy.picks, ?_⟩⟩
  exact sound.leastReady distinct greedy.sorted found

theorem greedy_iterate (sorted : component.Pairwise (· < ·))
    (acyclic : ∀ v, ¬TransGen (fun a b => b ∈ supers a) v v) (n : Nat) :
    Greedy supers component ((Placement.step supers component)^[n] ⟨[], component⟩) := by
  have distinct : component.Nodup := sorted.imp Nat.ne_of_lt
  induction n with
  | zero => exact ⟨sorted, trivial⟩
  | succ n ih =>
    rw [Function.iterate_succ_apply']
    exact ih.step (sound_iterate distinct acyclic n) distinct acyclic

end Placement

/-- A component is placed by always taking the least member whose supertypes are placed. -/
theorem picks_supertypesFirst {supers : Nat → List Nat} {component : List Nat}
    (sorted : component.Pairwise (· < ·))
    (acyclic : ∀ v, ¬TransGen (fun a b => b ∈ supers a) v v) :
    Picks (LeastReady (Placement.Awaits supers component) id) []
      (supertypesFirst supers component) := by
  obtain ⟨n, same, -⟩ := Placement.exists_iterate_eq_finish supers component ⟨[], component⟩
  have greedy := Placement.greedy_iterate sorted acyclic n
  rw [same] at greedy
  exact greedy.picks

end TypeGraph

end TypeBridge
