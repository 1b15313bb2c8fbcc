/-!
# Walks along a neighbour function

A walk looks for a goal among the elements that can be reached from a start.  It goes on only from
elements of a given finite list, which bounds the walk; elements outside are looked at and left.
-/

namespace TypeBridge.Search

variable {α : Type} [DecidableEq α]

/-- How many elements of a list are not among those seen. -/
def unseen (inside seen : List α) : Nat :=
  inside.countP (· ∉ seen)

theorem unseen_cons_le (inside seen : List α) (a : α) :
    unseen inside (a :: seen) ≤ unseen inside seen :=
  List.countP_mono_left fun b _ fresh => by
    simp only [decide_eq_true_eq, List.mem_cons, not_or] at *
    exact fresh.2

theorem unseen_cons (b : α) (rest seen : List α) :
    unseen (b :: rest) seen = unseen rest seen + if b ∈ seen then 0 else 1 := by
  unfold unseen
  rw [List.countP_cons]
  by_cases met : b ∈ seen <;> simp [met]

theorem unseen_cons_lt {inside seen : List α} {a : α} (known : a ∈ inside) (fresh : a ∉ seen) :
    unseen inside (a :: seen) < unseen inside seen := by
  induction inside with
  | nil => simp at known
  | cons b rest ih =>
    have rest_le := unseen_cons_le rest seen a
    rw [unseen_cons, unseen_cons]
    by_cases same : b = a
    · rw [if_pos (by simp [same]), if_neg (by rwa [same])]
      omega
    · have := ih ((List.mem_cons.1 known).resolve_left (Ne.symm same))
      by_cases met : b ∈ seen
      · rw [if_pos (List.mem_cons_of_mem _ met), if_pos met]
        omega
      · rw [if_neg (by simp [met, same]), if_neg met]
        omega

/-- A walk on the way. -/
structure Walk (α : Type) where
  /-- What is still to be looked at, the latest first. -/
  ahead : List α
  /-- What was looked at. -/
  seen : List α
  deriving DecidableEq, Repr

namespace Walk

/-- What one look leads to: the answer whether the goal is met, or the walk from there on. -/
inductive Turn (α : Type) where
  | ended (met : Bool)
  | onwards (walk : Walk α)

/-- Look at the latest element ahead.  From a fresh element of the list the walk goes on to all its
neighbours, the last one first. -/
def turn (next : α → List α) (inside : List α) (goal : α) (walk : Walk α) : Turn α :=
  match walk.ahead with
  | [] => .ended false
  | a :: ahead =>
    if a = goal then .ended true
    else if a ∈ walk.seen then .onwards ⟨ahead, walk.seen⟩
    else if a ∈ inside then .onwards ⟨(next a).reverse ++ ahead, a :: walk.seen⟩
    else .onwards ⟨ahead, a :: walk.seen⟩

/-- A walk that goes on has less ahead, or fewer elements that it may still go on from. -/
theorem turn_decreases {next : α → List α} {inside : List α} {goal : α} {walk later : Walk α}
    (turned : walk.turn next inside goal = .onwards later) :
    Prod.Lex (· < ·) (· < ·) (unseen inside later.seen, later.ahead.length)
      (unseen inside walk.seen, walk.ahead.length) := by
  obtain ⟨_ | ⟨a, ahead⟩, seen⟩ := walk
  · cases turned
  · simp only [turn] at turned
    split at turned
    · cases turned
    · split at turned
      · cases turned
        exact Prod.Lex.right _ (by simp)
      · next fresh =>
        split at turned
        · next known =>
          cases turned
          exact Prod.Lex.left _ _ (unseen_cons_lt known fresh)
        · cases turned
          rcases Nat.lt_or_eq_of_le (unseen_cons_le inside seen a) with fewer | equal
          · exact Prod.Lex.left _ _ fewer
          · dsimp only
            rw [equal]
            exact Prod.Lex.right _ (by simp)

/-- Whether a walk meets the goal. -/
def meets (next : α → List α) (inside : List α) (goal : α) (walk : Walk α) : Bool :=
  match _turned : walk.turn next inside goal with
  | .ended met => met
  | .onwards later => later.meets next inside goal
termination_by (unseen inside walk.seen, walk.ahead.length)
decreasing_by exact turn_decreases _turned

end Walk

/-- Whether a walk from `start` meets `goal`. -/
def reaches (next : α → List α) (inside : List α) (start goal : α) : Bool :=
  (Walk.mk [start] []).meets next inside goal

end TypeBridge.Search
