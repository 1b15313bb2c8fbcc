/-!
# Schedules

An order of items in which each stands behind everything that it waits for.  Every item counts the
items it still waits for; placing an item lowers the counts of those that wait for it, and an item
whose count comes down to zero is ready.  Of the ready items the one of least rank is placed next.
-/

namespace TypeBridge.Search

structure Schedule (α : Type) where
  /-- Every item with the number of items it still waits for.  Counts are lowered without a look at
  their value, so they are integers. -/
  pending : List (α × Int)
  /-- The items that are ready and not placed, by rank. -/
  ready : List α
  /-- The items placed so far, in order. -/
  placed : List α
  deriving DecidableEq, Repr

namespace Schedule

variable {α : Type} (waits : α → α → Bool) (rank : α → Nat)

/-- Put an item into a queue, behind the items of no greater rank. -/
def enqueue (queue : List α) (item : α) : List α :=
  match queue with
  | [] => [item]
  | first :: rest =>
    if rank item < rank first then item :: first :: rest else first :: enqueue rest item

/-- Every item counts what it waits for, and those that wait for nothing are ready. -/
def start (items : List α) : Schedule α :=
  let pending := items.map fun item => (item, (items.countP (waits item) : Int))
  let free := (pending.filter fun (_, count) => count == 0).map (·.1)
  ⟨pending, free.foldl (enqueue rank) [], []⟩

/-- The counts after an item is placed. -/
def lowered (item : α) (pending : List (α × Int)) : List (α × Int) :=
  pending.map fun (other, count) => (other, if waits other item then count - 1 else count)

/-- The items that waited for a placed one and, by the lowered counts, wait for no other. -/
def released (item : α) (pending : List (α × Int)) : List α :=
  (pending.filter fun (other, count) => waits other item && count == 0).map (·.1)

/-- Place the first ready item. -/
def step (schedule : Schedule α) : Schedule α :=
  match schedule.ready with
  | [] => schedule
  | item :: ready =>
    let pending := lowered waits item schedule.pending
    ⟨pending, (released waits item pending).foldl (enqueue rank) ready, schedule.placed ++ [item]⟩

theorem length_enqueue (queue : List α) (item : α) :
    (enqueue rank queue item).length = queue.length + 1 := by
  induction queue with
  | nil => rfl
  | cons first rest ih =>
    unfold enqueue
    split
    · rfl
    · simp [ih]

theorem length_foldl_enqueue (items queue : List α) :
    (items.foldl (enqueue rank) queue).length = queue.length + items.length := by
  induction items generalizing queue with
  | nil => rfl
  | cons item items ih =>
    rw [List.foldl_cons, ih, length_enqueue, List.length_cons]
    omega

/-- A released item is one that no longer counts. -/
theorem length_released_add_countP (item : α) (pending : List (α × Int)) :
    (released waits item (lowered waits item pending)).length +
        (lowered waits item pending).countP (0 < ·.2) =
      pending.countP (0 < ·.2) := by
  induction pending with
  | nil => rfl
  | cons entry pending ih =>
    obtain ⟨other, count⟩ := entry
    simp only [released, lowered, List.map_cons, List.length_map] at ih ⊢
    rw [List.countP_cons, List.countP_cons, List.filter_cons, ← ih]
    by_cases waiting : waits other item
    · simp only [waiting, if_true, Bool.true_and, beq_iff_eq, decide_eq_true_eq]
      rcases Int.lt_trichotomy count 1 with below | rfl | above
      · rw [if_neg (by omega), if_neg (by omega), if_neg (by omega)]
        omega
      · rw [if_pos (by omega), if_neg (by omega), if_pos (by omega), List.length_cons]
        omega
      · rw [if_neg (by omega), if_pos (by omega), if_pos (by omega)]
        omega
    · simp only [waiting, Bool.false_and, Bool.false_eq_true, if_false]
      omega

/-- Place items until none is ready. -/
def finish (schedule : Schedule α) : Schedule α :=
  match _more : schedule.ready with
  | [] => schedule
  | _ :: _ => finish (schedule.step waits rank)
termination_by schedule.ready.length + schedule.pending.countP (0 < ·.2)
decreasing_by
  next item ready =>
  simp only [step, _more, length_foldl_enqueue, List.length_cons]
  have := length_released_add_countP waits item schedule.pending
  omega

end Schedule

/-- Items in the order of their placement. -/
def schedule {α : Type} (waits : α → α → Bool) (rank : α → Nat) (items : List α) : List α :=
  ((Schedule.start waits rank items).finish waits rank).placed

end TypeBridge.Search
