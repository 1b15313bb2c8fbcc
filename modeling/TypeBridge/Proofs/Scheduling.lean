import Mathlib.Data.List.Nodup
import Mathlib.Logic.Function.Iterate
import TypeBridge.Search.Schedule

/-!
# Schedules are complete and ordered

At any time of a scheduling, every count is the number of items that are not placed and still waited
for, and the ready items are those that wait for placed ones only.  When no item waits for itself or
for a later one of the given list, every item is placed.
-/

namespace TypeBridge.Search.Schedule

variable {α : Type} {waits : α → α → Bool} {rank : α → Nat}

theorem perm_enqueue (queue : List α) (item : α) :
    (enqueue rank queue item).Perm (item :: queue) := by
  induction queue with
  | nil => exact .refl _
  | cons first rest ih =>
    unfold enqueue
    split
    · exact .refl _
    · exact (ih.cons first).trans (.swap item first rest)

theorem perm_foldl_enqueue (rank : α → Nat) (items queue : List α) :
    (items.foldl (enqueue rank) queue).Perm (items ++ queue) := by
  induction items generalizing queue with
  | nil => exact .refl _
  | cons item items ih =>
    rw [List.foldl_cons]
    exact (ih _).trans (((perm_enqueue queue item).append_left items).trans List.perm_middle)

variable [DecidableEq α] {items : List α}

/-- How many items that are not placed an item waits for. -/
def remaining (waits : α → α → Bool) (items placed : List α) (item : α) : Nat :=
  items.countP fun other => waits item other && decide (other ∉ placed)

theorem remaining_eq_zero_iff {placed : List α} {item : α} :
    remaining waits items placed item = 0 ↔
      ∀ other ∈ items, waits item other = true → other ∈ placed := by
  simp [remaining, List.countP_eq_zero]

/-- Placing an item lowers the count of those that wait for it by one. -/
theorem remaining_concat (waits : α → α → Bool) {placed : List α} {a : α} (distinct : items.Nodup)
    (known : a ∈ items) (fresh : a ∉ placed) (item : α) :
    remaining waits items placed item =
      remaining waits items (placed ++ [a]) item + if waits item a then 1 else 0 := by
  unfold remaining
  induction items with
  | nil => simp at known
  | cons first rest ih =>
    rw [List.countP_cons, List.countP_cons]
    obtain ⟨notLater, distinctRest⟩ := List.nodup_cons.1 distinct
    rcases List.mem_cons.1 known with rfl | later
    · have same : rest.countP (fun other => waits item other && decide (other ∉ placed)) =
          rest.countP (fun other => waits item other && decide (other ∉ placed ++ [a])) := by
        apply List.countP_congr
        intro other member
        have differs : other ≠ a := fun same => notLater (same ▸ member)
        simp [differs]
      rw [same]
      by_cases waiting : waits item a <;> simp [waiting, fresh]
    · have differs : first ≠ a := fun same => notLater (same ▸ later)
      rw [ih distinctRest later]
      simp only [List.mem_append, List.mem_singleton, differs, or_false]
      omega

/-- What holds of a scheduling at any time. -/
structure Sound (waits : α → α → Bool) (items : List α) (schedule : Schedule α) : Prop where
  pending_eq : schedule.pending =
    items.map fun item => (item, (remaining waits items schedule.placed item : Int))
  mem_ready_iff : ∀ a, a ∈ schedule.ready ↔ a ∈ items ∧ a ∉ schedule.placed ∧
    ∀ other ∈ items, waits a other = true → other ∈ schedule.placed
  distinct : schedule.ready.Nodup
  placed_distinct : schedule.placed.Nodup
  placed_subset : ∀ a ∈ schedule.placed, a ∈ items
  closed : ∀ a ∈ schedule.placed, ∀ other ∈ items, waits a other = true →
    other ∈ schedule.placed
  ordered : schedule.placed.Pairwise fun earlier later => ¬waits earlier later = true

/-- No count is ever below zero. -/
theorem Sound.zero_le {schedule : Schedule α} (sound : Sound waits items schedule) :
    ∀ entry ∈ schedule.pending, 0 ≤ entry.2 := by
  rw [sound.pending_eq]
  intro entry member
  obtain ⟨item, -, rfl⟩ := List.mem_map.1 member
  exact Int.natCast_nonneg _

/-- The items that are ready at first are those that wait for none. -/
theorem ready_start_perm :
    (start waits rank items).ready.Perm
      (items.filter fun item => remaining waits items [] item = 0) := by
  have counts : ∀ item, items.countP (waits item) = remaining waits items [] item := by
    intro item
    simp [remaining]
  have free : (start waits rank items).ready =
      (items.filter fun item => remaining waits items [] item = 0).foldl (enqueue rank) [] := by
    simp only [start, List.filter_map, List.map_map, Function.comp_def, counts, List.map_id']
    congr 1
    apply List.filter_congr
    intro item _
    rw [Bool.eq_iff_iff]
    simp
  rw [free]
  have queued := perm_foldl_enqueue rank
    (items.filter fun item => remaining waits items [] item = 0) []
  rwa [List.append_nil] at queued

theorem sound_start (distinct : items.Nodup) : Sound waits items (start waits rank items) := by
  refine
    { pending_eq := ?_
      mem_ready_iff := ?_
      distinct := ?_
      placed_distinct := .nil
      placed_subset := by simp [start]
      closed := by simp [start]
      ordered := .nil }
  · simp [start, remaining]
  · intro a
    rw [ready_start_perm.mem_iff, List.mem_filter, decide_eq_true_eq, remaining_eq_zero_iff]
    simp [start]
  · exact ready_start_perm.nodup_iff.2 (distinct.filter _)

/-- The counts after an item is placed are the numbers of items still waited for. -/
theorem lowered_remaining (waits : α → α → Bool) {placed : List α} {a : α}
    (distinct : items.Nodup) (known : a ∈ items) (fresh : a ∉ placed) :
    lowered waits a (items.map fun item => (item, (remaining waits items placed item : Int))) =
      items.map fun item => (item, (remaining waits items (placed ++ [a]) item : Int)) := by
  unfold lowered
  rw [List.map_map]
  apply List.map_congr_left
  intro item _
  have count := remaining_concat waits distinct known fresh item
  by_cases waiting : waits item a
  · simp only [Function.comp, waiting, if_true, Prod.mk.injEq, true_and] at count ⊢
    omega
  · simp only [Function.comp, waiting, Bool.false_eq_true, if_false, Prod.mk.injEq, true_and]
      at count ⊢
    omega

/-- The released items wait for the placed one, and for nothing that is not placed. -/
theorem released_remaining (waits : α → α → Bool) (items placed : List α) (a : α) :
    released waits a (items.map fun item => (item, (remaining waits items placed item : Int))) =
      items.filter fun item => waits item a && decide (remaining waits items placed item = 0) := by
  simp only [released, List.filter_map, List.map_map, Function.comp_def, List.map_id']
  exact List.filter_congr fun item _ => by rw [Bool.eq_iff_iff]; simp

section Placing

variable {schedule : Schedule α} (sound : Sound waits items schedule) {a : α}
  (first : a ∈ schedule.ready)
include sound first

/-- An item that waits for a ready one is itself neither ready nor placed. -/
theorem Sound.notMem_of_waits {b : α} (waiting : waits b a = true) :
    b ∉ schedule.ready ∧ b ∉ schedule.placed := by
  obtain ⟨known, fresh, -⟩ := (sound.mem_ready_iff a).1 first
  constructor
  · intro member
    exact fresh (((sound.mem_ready_iff b).1 member).2.2 a known waiting)
  · intro member
    exact fresh (sound.closed b member a known waiting)

variable (distinct : items.Nodup)
include distinct

theorem Sound.lowered_eq : lowered waits a schedule.pending =
    items.map fun item => (item, (remaining waits items (schedule.placed ++ [a]) item : Int)) := by
  obtain ⟨known, fresh, -⟩ := (sound.mem_ready_iff a).1 first
  rw [sound.pending_eq]
  exact lowered_remaining waits distinct known fresh

theorem Sound.released_eq : released waits a (lowered waits a schedule.pending) =
    items.filter fun item =>
      waits item a && decide (remaining waits items (schedule.placed ++ [a]) item = 0) := by
  rw [sound.lowered_eq first distinct]
  exact released_remaining waits items _ a

theorem Sound.mem_released_iff (b : α) :
    b ∈ released waits a (lowered waits a schedule.pending) ↔
      b ∈ items ∧ waits b a = true ∧
        ∀ other ∈ items, waits b other = true → other ∈ schedule.placed ++ [a] := by
  rw [sound.released_eq first distinct, List.mem_filter, Bool.and_eq_true, decide_eq_true_eq,
    remaining_eq_zero_iff]

end Placing

/-- Placing a ready item keeps the scheduling sound. -/
theorem Sound.step {schedule : Schedule α} (distinct : items.Nodup)
    (sound : Sound waits items schedule) : Sound waits items (schedule.step waits rank) := by
  unfold Schedule.step
  split
  · exact sound
  next a ready more =>
  have first : a ∈ schedule.ready := by simp [more]
  obtain ⟨known, fresh, waitless⟩ := (sound.mem_ready_iff a).1 first
  have readyDistinct := sound.distinct
  rw [more, List.nodup_cons] at readyDistinct
  have mem_rest : ∀ b, b ∈ ready ↔ b ≠ a ∧ b ∈ schedule.ready := by
    intro b
    rw [more, List.mem_cons]
    refine ⟨fun member => ⟨fun same => readyDistinct.1 (same ▸ member), Or.inr member⟩, ?_⟩
    rintro ⟨differs, same | member⟩
    · exact absurd same differs
    · exact member
  have mem_released := sound.mem_released_iff first distinct
  have queued := perm_foldl_enqueue rank
    (released waits a (lowered waits a schedule.pending)) ready
  refine
    { pending_eq := sound.lowered_eq first distinct
      mem_ready_iff := ?_
      distinct := ?_
      placed_distinct := ?_
      placed_subset := ?_
      closed := ?_
      ordered := ?_ }
  · intro b
    dsimp only
    rw [queued.mem_iff, List.mem_append, mem_released, mem_rest, sound.mem_ready_iff,
      List.mem_append, List.mem_singleton, not_or]
    constructor
    · rintro (⟨inside, waiting, none⟩ | ⟨differs, inside, notPlaced, none⟩)
      · obtain ⟨unready, unplaced⟩ := sound.notMem_of_waits first waiting
        exact ⟨inside, ⟨unplaced, fun same => unready (same ▸ first)⟩, none⟩
      · exact ⟨inside, ⟨notPlaced, differs⟩,
          fun other member waiting => List.mem_append_left _ (none other member waiting)⟩
    · rintro ⟨inside, ⟨notPlaced, differs⟩, none⟩
      -- Either the placed item was the last one waited for, or the item was ready before.
      by_cases waiting : waits b a = true
      · exact Or.inl ⟨inside, waiting, none⟩
      · refine Or.inr ⟨differs, inside, notPlaced, fun other member waits => ?_⟩
        rcases List.mem_append.1 (none other member waits) with placed | last
        · exact placed
        · exact absurd (List.mem_singleton.1 last ▸ waits) waiting
  · refine queued.nodup_iff.2 (List.nodup_append.2 ⟨?_, readyDistinct.2, ?_⟩)
    · rw [sound.released_eq first distinct]
      exact distinct.filter _
    · rintro b new c old rfl
      exact (sound.notMem_of_waits first ((mem_released b).1 new).2.1).1 ((mem_rest b).1 old).2
  · refine List.nodup_append.2 ⟨sound.placed_distinct, List.nodup_singleton _, ?_⟩
    rintro b old c last rfl
    exact fresh (List.mem_singleton.1 last ▸ old)
  · intro b member
    rcases List.mem_append.1 member with old | last
    · exact sound.placed_subset b old
    · rwa [List.mem_singleton.1 last]
  · intro b member other inside waiting
    apply List.mem_append_left
    rcases List.mem_append.1 member with old | last
    · exact sound.closed b old other inside waiting
    · exact waitless other inside (List.mem_singleton.1 last ▸ waiting)
  · refine List.pairwise_append.2 ⟨sound.ordered, List.pairwise_singleton _ _, ?_⟩
    intro earlier old later last waiting
    rw [List.mem_singleton.1 last] at waiting
    exact (sound.notMem_of_waits first waiting).2 old

/-- Every state of a scheduling is sound. -/
theorem sound_iterate (rank : α → Nat) (distinct : items.Nodup) (n : Nat) :
    Sound waits items ((step waits rank)^[n] (start waits rank items)) := by
  induction n with
  | zero => exact sound_start distinct
  | succ n ih =>
    rw [Function.iterate_succ_apply']
    exact ih.step distinct

omit [DecidableEq α] in
/-- A scheduling ends after some steps with nothing ready. -/
theorem exists_iterate_eq_finish (waits : α → α → Bool) (rank : α → Nat)
    (schedule : Schedule α) :
    ∃ n, (step waits rank)^[n] schedule = schedule.finish waits rank ∧
      (schedule.finish waits rank).ready = [] := by
  induction schedule using finish.induct waits rank with
  | case1 schedule none =>
    refine ⟨0, ?_⟩
    rw [finish]
    split
    · exact ⟨rfl, none⟩
    · next more => simp [none] at more
  | case2 schedule first rest more ih =>
    obtain ⟨n, same, none⟩ := ih
    refine ⟨n + 1, ?_⟩
    rw [finish]
    split
    · next empty => simp [empty] at more
    · exact ⟨same, none⟩

/-- When nothing is ready and no item waits for itself or a later one, all are placed. -/
theorem Sound.perm {schedule : Schedule α} (sound : Sound waits items schedule)
    (distinct : items.Nodup) (none : schedule.ready = [])
    (irreflexive : ∀ a ∈ items, ¬waits a a = true)
    (ordered : items.Pairwise fun earlier later => ¬waits earlier later = true) :
    schedule.placed.Perm items := by
  apply (List.perm_ext_iff_of_nodup sound.placed_distinct distinct).2
  intro a
  refine ⟨sound.placed_subset a, fun known => ?_⟩
  by_contra missing
  -- The first item that is not placed waits for earlier ones only, so it would be ready.
  have some : (items.find? (· ∉ schedule.placed)).isSome := by
    rw [List.find?_isSome]
    exact ⟨a, known, by simpa using missing⟩
  obtain ⟨first, found⟩ := Option.isSome_iff_exists.1 some
  obtain ⟨fresh, front, back, rfl, placed⟩ := List.find?_eq_some_iff_append.1 found
  obtain ⟨-, laterOrdered, -⟩ := List.pairwise_append.1 ordered
  have ready : first ∈ schedule.ready := by
    refine (sound.mem_ready_iff first).2 ⟨by simp, by simpa using fresh, ?_⟩
    intro other member waiting
    rcases List.mem_append.1 member with earlier | others
    · simpa using placed other earlier
    rcases List.mem_cons.1 others with rfl | later
    · exact absurd waiting (irreflexive other (by simp))
    · exact absurd waiting ((List.pairwise_cons.1 laterOrdered).1 other later)
  rw [none] at ready
  simp at ready

end TypeBridge.Search.Schedule

namespace TypeBridge.Search

variable {α : Type} [DecidableEq α] {waits : α → α → Bool} {items : List α}

/-- A schedule holds every item once, and none waits for a later one. -/
theorem perm_schedule (rank : α → Nat) (distinct : items.Nodup)
    (irreflexive : ∀ a ∈ items, ¬waits a a = true)
    (ordered : items.Pairwise fun earlier later => ¬waits earlier later = true) :
    (schedule waits rank items).Perm items ∧
      (schedule waits rank items).Pairwise fun earlier later => ¬waits earlier later = true := by
  obtain ⟨n, same, none⟩ :=
    Schedule.exists_iterate_eq_finish waits rank (Schedule.start waits rank items)
  have sound : Schedule.Sound waits items _ := Schedule.sound_iterate rank distinct n
  rw [same] at sound
  exact ⟨sound.perm distinct none irreflexive ordered, sound.ordered⟩

end TypeBridge.Search
