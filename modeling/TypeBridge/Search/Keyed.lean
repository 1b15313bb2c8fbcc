/-!
# Finding by key

Lists whose elements have distinct keys, as tables: what a key finds is exactly the element that
carries it.
-/

namespace TypeBridge.Search

variable {α κ : Type} [DecidableEq κ]

/-- With distinct keys, a key finds the one element that carries it. -/
theorem find?_key_eq_some_iff {key : α → κ} {elements : List α} {wanted : κ} {element : α}
    (distinct : (elements.map key).Nodup) :
    elements.find? (key · == wanted) = some element ↔
      element ∈ elements ∧ key element = wanted := by
  induction elements with
  | nil => simp
  | cons first rest ih =>
    rw [List.map_cons, List.nodup_cons] at distinct
    rw [List.find?_cons]
    by_cases same : key first = wanted
    · rw [beq_iff_eq.2 same]
      constructor
      · rintro ⟨⟩
        exact ⟨List.mem_cons_self, same⟩
      · rintro ⟨known, carries⟩
        rcases List.mem_cons.1 known with rfl | later
        · rfl
        · exact absurd (same.trans carries.symm ▸ List.mem_map_of_mem later) distinct.1
    · rw [beq_eq_false_iff_ne.2 same]
      refine (ih distinct.2).trans ⟨?_, ?_⟩
      · rintro ⟨known, carries⟩
        exact ⟨List.mem_cons_of_mem _ known, carries⟩
      · rintro ⟨known, carries⟩
        rcases List.mem_cons.1 known with rfl | later
        · exact absurd carries same
        · exact ⟨later, carries⟩

/-- A key finds nothing exactly when no element carries it. -/
theorem find?_key_eq_none_iff {key : α → κ} {elements : List α} {wanted : κ} :
    elements.find? (key · == wanted) = none ↔ wanted ∉ elements.map key := by
  simp [List.find?_eq_none]

end TypeBridge.Search
