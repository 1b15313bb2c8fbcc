import Mathlib.Data.List.Forall2

/-!
# Successful outcomes

What the success of a computation that may fail says about its parts.
-/

namespace TypeBridge

/-- In a pairing of two lists every element of the second has a partner. -/
theorem exists_of_forall₂ {α β : Type} {related : α → β → Prop} {all : List α} {others : List β}
    (paired : List.Forall₂ related all others) {b : β} (member : b ∈ others) :
    ∃ a ∈ all, related a b := by
  induction paired with
  | nil => simp at member
  | cons first _ ih =>
    rcases List.mem_cons.1 member with rfl | later
    · exact ⟨_, List.mem_cons_self, first⟩
    · obtain ⟨a, known, holds⟩ := ih later
      exact ⟨a, List.mem_cons_of_mem _ known, holds⟩

namespace Outcome

variable {ε ε' α β : Type}

theorem bind_eq_ok_iff {first : Except ε α} {next : α → Except ε β} {b : β} :
    first >>= next = .ok b ↔ ∃ a, first = .ok a ∧ next a = .ok b := by
  cases first with
  | error error => simp [bind, Except.bind]
  | ok a => simp [bind, Except.bind]

theorem bind_eq_error_iff {first : Except ε α} {next : α → Except ε β} {error : ε} :
    first >>= next = .error error ↔
      first = .error error ∨ ∃ a, first = .ok a ∧ next a = .error error := by
  cases first with
  | error other => simp [bind, Except.bind]
  | ok a => simp [bind, Except.bind]

theorem map_eq_ok_iff {outcome : Except ε α} {f : α → β} {b : β} :
    outcome.map f = .ok b ↔ ∃ a, outcome = .ok a ∧ f a = b := by
  cases outcome <;> simp [Except.map]

theorem mapError_eq_ok_iff {outcome : Except ε α} {f : ε → ε'} {a : α} :
    outcome.mapError f = .ok a ↔ outcome = .ok a := by
  cases outcome <;> simp [Except.mapError]

theorem toOption_eq_some_iff {outcome : Except ε α} {a : α} :
    outcome.toOption = some a ↔ outcome = .ok a := by
  cases outcome <;> simp [Except.toOption]

/-- What every step of a fold preserves holds of its outcome. -/
theorem foldlM_preserves {step : β → α → Except ε β} (promise : β → Prop)
    (kept : ∀ a b b', step b a = .ok b' → promise b → promise b') {all : List α} {b final : β}
    (folded : all.foldlM step b = .ok final) (holds : promise b) : promise final := by
  induction all generalizing b with
  | nil =>
    cases folded
    exact holds
  | cons a rest ih =>
    rw [List.foldlM_cons] at folded
    obtain ⟨next, stepped, others⟩ := bind_eq_ok_iff.1 folded
    exact ih others (kept a b next stepped holds)

/-- A list of computations succeeds with the outcome of each. -/
theorem forall₂_of_mapM {f : α → Except ε β} {all : List α} {results : List β}
    (mapped : all.mapM f = .ok results) : List.Forall₂ (fun a b => f a = .ok b) all results := by
  induction all generalizing results with
  | nil =>
    cases mapped
    exact .nil
  | cons a rest ih =>
    rw [List.mapM_cons] at mapped
    obtain ⟨b, first, mapped⟩ := bind_eq_ok_iff.1 mapped
    obtain ⟨others, last, mapped⟩ := bind_eq_ok_iff.1 mapped
    cases mapped
    exact .cons first (ih last)

end Outcome

end TypeBridge
