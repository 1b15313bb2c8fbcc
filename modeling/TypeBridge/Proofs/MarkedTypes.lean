import TypeBridge.Pass.Discovery
import TypeBridge.Proofs.AdapterReferences
import TypeBridge.Proofs.WalkReachability

/-!
# The types that discovery selects

A type is marked by an annotation that has the configured name, or ends in it behind a dot.
Discovery compares the last segments of annotations only.  So it selects the marked types and those
that derive from a configured root, and warns about each of them that may not be declared, unless
the configured name itself has a dot: no last segment is that name, and a type that is annotated
with it is passed over.
-/

namespace TypeBridge

open Relation

namespace Name

theorem dot_notMem_simple (name : String) : '.' ∉ (simple name).toList := by
  rw [simple, String.toList_ofList]
  exact notMem_behindLast '.' name.toList

theorem simple_of_notMem {name : String} (free : '.' ∉ name.toList) : simple name = name := by
  rw [simple, behindLast_of_notMem free, String.ofList_toList]

end Name

theorem anyNamed_iff {annotations : List Annotation} {name : String} :
    anyNamed annotations name = true ↔ ∃ mark ∈ annotations, Name.simple mark.name = name := by
  simp [anyNamed, firstNamed?, Annotation.isNamed]

/-- Of the elements that carry a key, a list with distinct keys has one at most. -/
theorem Search.countP_key {α κ : Type} [DecidableEq κ] {key : α → κ} {elements : List α}
    (distinct : (elements.map key).Nodup) {element : α} (known : element ∈ elements)
    (wanted : α → Bool) :
    elements.countP (fun other => wanted other && key other == key element) =
      if wanted element then 1 else 0 := by
  induction elements with
  | nil => cases known
  | cons first rest ih =>
    rw [List.map_cons, List.nodup_cons] at distinct
    rw [List.countP_cons]
    rcases List.mem_cons.1 known with rfl | later
    · have none : rest.countP (fun other => wanted other && key other == key element) = 0 := by
        refine List.countP_eq_zero.2 fun other listed => ?_
        have differs : key other ≠ key element :=
          fun same => distinct.1 (same ▸ List.mem_map_of_mem listed)
        simp [differs]
      rw [none, beq_self_eq_true, Bool.and_true, Nat.zero_add]
    · have differs : key first ≠ key element :=
        fun same => distinct.1 (same ▸ List.mem_map_of_mem later)
      rw [ih distinct.2 later, beq_eq_false_iff_ne.2 differs, Bool.and_false]
      rfl

/-- Some annotation has a name, or ends in it behind its last dot. -/
def HostType.IsMarked (type : HostType) (marker : String) : Prop :=
  ∃ mark ∈ type.annotations, mark.name = marker ∨ Name.simple mark.name = marker

/-- The last segment of some annotation is a name. -/
def HostType.IsMarkedSimply (type : HostType) (marker : String) : Prop :=
  ∃ mark ∈ type.annotations, Name.simple mark.name = marker

/-- Some annotation has a name that no last segment can be. -/
def HostType.IsMarkedInFull (type : HostType) (marker : String) : Prop :=
  '.' ∈ marker.toList ∧ ∃ mark ∈ type.annotations, mark.name = marker

/-- Both readings of a mark agree, unless it is written out in full and has a dot. -/
theorem HostType.isMarked_iff {type : HostType} {marker : String} :
    type.IsMarked marker ↔ type.IsMarkedSimply marker ∨ type.IsMarkedInFull marker := by
  constructor
  · rintro ⟨mark, listed, rfl | simple⟩
    · by_cases dotted : '.' ∈ mark.name.toList
      · exact .inr ⟨dotted, mark, listed, rfl⟩
      · exact .inl ⟨mark, listed, Name.simple_of_notMem dotted⟩
    · exact .inl ⟨mark, listed, simple⟩
  · rintro (⟨mark, listed, simple⟩ | ⟨-, mark, listed, same⟩)
    · exact ⟨mark, listed, .inr simple⟩
    · exact ⟨mark, listed, .inl same⟩

theorem HostType.IsMarkedInFull.not_simply {type : HostType} {marker : String}
    (inFull : type.IsMarkedInFull marker) : ¬ type.IsMarkedSimply marker := by
  rintro ⟨mark, -, rfl⟩
  exact Name.dot_notMem_simple mark.name inFull.1

/-- Declared supertypes lead from a type to a configured root. -/
def HostModel.DerivesFromRoot (model : HostModel) (config : Config) (type : HostType) : Prop :=
  ∃ root ∈ config.roots, ReflTransGen model.Extends type.name root

/-- A type is visible from outside and inside the allow-list. -/
def Config.MayDeclare (config : Config) (type : HostType) : Prop :=
  type.visibility.isApi = true ∧ config.allow.contains type.name = true

namespace Discovery

variable {config : Config} {model : HostModel} {type : HostType}

theorem isRoot_iff :
    isRoot config model type = true ↔
      type.IsMarkedSimply config.marker ∨ model.DerivesFromRoot config type := by
  rw [isRoot, Bool.or_eq_true, anyNamed_iff, List.any_eq_true]
  simp only [HostModel.isAssignable_iff]
  rfl

theorem isNone_obstacle?_iff :
    (obstacle? config type).isNone = true ↔ config.MayDeclare type := by
  unfold obstacle? Config.MayDeclare
  cases type.visibility.isApi <;> cases config.allow.contains type.name <;> simp

theorem mem_declarations_iff (known : type ∈ model.types) :
    type.name ∈ (scan config model).candidates.declarations ↔
      isRoot config model type = true ∧ config.MayDeclare type := by
  constructor
  · intro selected
    obtain ⟨other, passes, same⟩ := List.mem_map.1 selected
    simp only [List.mem_filter] at passes
    obtain rfl := List.inj_on_of_nodup_map model.distinct passes.1.1.1 known same
    exact ⟨passes.2, isNone_obstacle?_iff.1 passes.1.2⟩
  · rintro ⟨root, free⟩
    refine List.mem_map_of_mem ?_
    simp only [List.mem_filter, known, root, isNone_obstacle?_iff.2 free, Bool.true_or, and_self]

theorem mem_recipes_iff (known : type ∈ model.types) :
    type.name ∈ (scan config model).candidates.recipes ↔
      type.isRecipe = true ∧ config.MayDeclare type := by
  constructor
  · intro selected
    obtain ⟨other, passes, same⟩ := List.mem_map.1 selected
    simp only [List.mem_filter] at passes
    obtain rfl := List.inj_on_of_nodup_map model.distinct passes.1.1.1 known same
    exact ⟨passes.2, isNone_obstacle?_iff.1 passes.1.2⟩
  · rintro ⟨recipe, free⟩
    refine List.mem_map_of_mem ?_
    simp only [List.mem_filter, known, recipe, isNone_obstacle?_iff.2 free, Bool.or_true, and_self]

/-- Candidates stand in model order. -/
theorem declarations_sublist :
    (scan config model).candidates.declarations.Sublist model.names :=
  ((List.filter_sublist.trans List.filter_sublist).trans List.filter_sublist).map _

/-- How many warnings of a discovery are located at a type. -/
def warningsAt (discovery : Discovery) (name : String) : Nat :=
  discovery.diagnostics.countP fun found => found.severity == .warning &&
    found.location == some name

/-- A type that discovery looks at leaves one warning if it may not be declared. -/
theorem warningsAt_scan (known : type ∈ model.types) :
    (scan config model).warningsAt type.name =
      if (isRoot config model type || type.isRecipe) && !(obstacle? config type).isNone
      then 1 else 0 := by
  have stray : (strayRoots config model).countP (fun found => found.severity == .warning &&
      found.location == some type.name) = 0 := by
    refine List.countP_eq_zero.2 fun found listed => ?_
    obtain ⟨root, missing, rfl⟩ := List.mem_map.1 listed
    have unknown : root ∉ model.names := by
      have absent := (List.mem_filter.1 missing).2
      rwa [Bool.not_eq_true', ← Bool.not_eq_true, HostModel.contains_iff] at absent
    have differs : root ≠ type.name := fun same => unknown (same ▸ List.mem_map_of_mem known)
    simp [warning, differs]
  rw [← Search.countP_key model.distinct known fun other =>
    (isRoot config model other || other.isRecipe) && !(obstacle? config other).isNone]
  simp only [warningsAt, scan, List.countP_append, stray, Nat.zero_add, List.countP_filterMap,
    List.countP_filter]
  refine List.countP_congr fun other _ => ?_
  cases obstacle? config other <;> simp [warning, and_comm]

/-- What a discovery makes of a type, given whether declarations are to start from it. -/
structure Treats (discovery : Discovery) (config : Config) (type : HostType) (isRoot : Prop) :
    Prop where
  /-- It is a candidate when declarations start from it and it may be declared. -/
  selected : type.name ∈ discovery.candidates.declarations ↔ isRoot ∧ config.MayDeclare type
  /-- There is a warning about it when it would be a candidate of some kind and is none. -/
  warned : discovery.warningsAt type.name = 1 ↔ (isRoot ∨ type.isRecipe = true) ∧
    type.name ∉ discovery.candidates.declarations ∧ type.name ∉ discovery.candidates.recipes
  /-- There is never a second one. -/
  once : discovery.warningsAt type.name ≤ 1

theorem warningsAt_scan_le (known : type ∈ model.types) :
    (scan config model).warningsAt type.name ≤ 1 := by
  rw [warningsAt_scan known]
  split <;> omega

theorem warningsAt_scan_eq_one_iff (known : type ∈ model.types) :
    (scan config model).warningsAt type.name = 1 ↔
      (isRoot config model type = true ∨ type.isRecipe = true) ∧ ¬ config.MayDeclare type := by
  rw [warningsAt_scan known, ← isNone_obstacle?_iff]
  simp

/-- Discovery treats a type as called for when it agrees on whether declarations start from it, or
when the type is a recipe that is warned about anyway. -/
theorem treats_scan_iff (known : type ∈ model.types) {root : Prop} :
    (scan config model).Treats config type root ↔
      (isRoot config model type = true ↔ root) ∨
        (type.isRecipe = true ∧ ¬ config.MayDeclare type) := by
  constructor
  · intro treats
    have selected := treats.selected
    have warned := treats.warned
    rw [mem_declarations_iff known] at selected
    rw [warningsAt_scan_eq_one_iff known, mem_declarations_iff known, mem_recipes_iff known]
      at warned
    tauto
  · intro agrees
    refine ⟨?_, ?_, warningsAt_scan_le known⟩
    · rw [mem_declarations_iff known]
      tauto
    · rw [warningsAt_scan_eq_one_iff known, mem_declarations_iff known, mem_recipes_iff known]
      tauto

end Discovery

/-- A private type that carries the last segment of a mark and derives from a type elsewhere. -/
def hiddenType : HostType :=
  { Snapshot.plainType with
    name := "B"
    visibility := .private
    annotations := [⟨"Exported", []⟩]
    supertypes := [.named "Elsewhere" []] }

/-- A type that carries a mark in full, the private type, and one that derives from it. -/
def exportedModel : HostModel where
  types := [
    { Snapshot.plainType with name := "A", annotations := [⟨"x.Exported", []⟩] },
    hiddenType,
    { Snapshot.plainType with name := "C", supertypes := [.named "B" []] }]
  distinct := (by decide : ["A", "B", "C"].Nodup)

def exportingConfig (marker : String) : Config :=
  { Config.plain with marker, roots := ["Elsewhere"] }

/-- The candidates for declarations are types of the model, in its order and each once.  A type is a
candidate exactly when it may be declared and some annotation ends in the configured mark or a root
is reached; when it is none for lack of permission, there is one warning about it.  An annotation
that is the mark itself counts as well, unless the mark has a dot: then it counts for nothing, and
the type is treated as if it were not annotated. -/
theorem marked_types_selected_iff (config : Config) (model : HostModel) :
    let discovery := Discovery.scan config model
    discovery.candidates.declarations.Sublist model.names ∧
    discovery.candidates.declarations.Nodup ∧
    ∀ type ∈ model.types,
      discovery.Treats config type
        (type.IsMarkedSimply config.marker ∨ model.DerivesFromRoot config type) ∧
      (discovery.Treats config type
          (type.IsMarked config.marker ∨ model.DerivesFromRoot config type) ↔
        (type.IsMarkedInFull config.marker → model.DerivesFromRoot config type ∨
          (type.isRecipe = true ∧ ¬ config.MayDeclare type))) := by
  refine ⟨Discovery.declarations_sublist, Discovery.declarations_sublist.nodup model.distinct, ?_⟩
  intro type known
  refine ⟨(Discovery.treats_scan_iff known).2 (.inl Discovery.isRoot_iff), ?_⟩
  rw [Discovery.treats_scan_iff known, Discovery.isRoot_iff, HostType.isMarked_iff]
  have apart : type.IsMarkedInFull config.marker → ¬ type.IsMarkedSimply config.marker :=
    HostType.IsMarkedInFull.not_simply
  tauto

theorem exportedModel_selected :
    (Discovery.scan (exportingConfig "Exported") exportedModel).candidates.declarations =
        ["A", "C"] ∧
      hiddenType ∈ exportedModel.types ∧ hiddenType.IsMarked "Exported" ∧
      (Discovery.scan (exportingConfig "Exported") exportedModel).warningsAt "B" = 1 ∧
      (Discovery.scan (exportingConfig "Exported") exportedModel).Treats
        (exportingConfig "Exported") hiddenType
        (hiddenType.IsMarked "Exported" ∨
          exportedModel.DerivesFromRoot (exportingConfig "Exported") hiddenType) := by
  have known : hiddenType ∈ exportedModel.types := List.mem_cons_of_mem _ List.mem_cons_self
  obtain ⟨-, -, each⟩ := marked_types_selected_iff (exportingConfig "Exported") exportedModel
  obtain ⟨-, treated⟩ := each hiddenType known
  refine ⟨by cbv, known, ⟨_, List.mem_cons_self, .inl rfl⟩, by cbv, treated.2 fun inFull => ?_⟩
  have dotted : '.' ∈ "Exported".toList := inFull.1
  exact absurd dotted (by decide)

/-- A type that is annotated with the configured mark itself is passed over in silence. -/
theorem exportedModel_passed_over :
    ∃ type ∈ exportedModel.types, type.IsMarked "x.Exported" ∧
      (exportingConfig "x.Exported").MayDeclare type ∧
      type.name ∉ (Discovery.scan (exportingConfig "x.Exported")
        exportedModel).candidates.declarations ∧
      (Discovery.scan (exportingConfig "x.Exported") exportedModel).warningsAt type.name = 0 := by
  refine ⟨_, List.mem_cons_self, ⟨_, List.mem_cons_self, .inl rfl⟩, ⟨rfl, rfl⟩, ?_, by cbv⟩
  have rest : (Discovery.scan (exportingConfig "x.Exported")
      exportedModel).candidates.declarations = ["C"] := by cbv
  rw [rest]
  exact (by decide : "A" ∉ ["C"])

end TypeBridge
