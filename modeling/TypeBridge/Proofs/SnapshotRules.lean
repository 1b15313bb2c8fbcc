import TypeBridge.Proofs.ClosureContainment

/-!
# The types of a loaded model keep the rules of snapshots

A snapshot is refused at the first type that breaks a rule, so every type of a model that was loaded
keeps all of them, also the types inside other ones.
-/

namespace TypeBridge

/-- What loading checks of a type, given the name of the type around it. -/
structure HostType.KeepsRules (parent : Option String) (type : HostType) : Prop where
  named : Name.fault? type.name = none
  placed : ∀ outer, parent = some outer → Snapshot.isChildName outer type.name = true
  constants : type.constants ≠ [] → type.kind = .enum
  closed : type.closed = true ↔ type.variants ≠ []
  variants : ∀ variant ∈ type.variants, Name.fault? variant = none

namespace Snapshot

theorem fault?_eq_none {parent : Option String} {type : HostType}
    (faultless : fault? parent type = none) :
    type.KeepsRules parent ∧ firstFault? (some type.name) type.nested = none := by
  obtain ⟨name, span, kind, visibility, doc, generics, supertypes, members, constructors, nested,
    closed, variants, constants, annotations⟩ := type
  unfold fault? at faultless
  split at faultless
  · cases faultless
  next named =>
  split at faultless
  · cases faultless
  next placed =>
  split at faultless
  · cases faultless
  next constantsInEnum =>
  split at faultless
  · cases faultless
  next listsVariants =>
  split at faultless
  · cases faultless
  next staysOpen =>
  split at faultless
  · cases faultless
  next variantsNamed =>
  refine ⟨⟨named, ?_, ?_, ?_, ?_⟩, faultless⟩
  · rintro outer rfl
    simpa using placed
  · intro some
    simpa [some] using constantsInEnum
  · cases closed <;> simp_all
  · intro variant listed
    have unnamed := List.findSome?_eq_none_iff.1 variantsNamed variant listed
    simpa using unnamed

theorem firstFault?_eq_none_iff {parent : Option String} {types : List HostType} :
    firstFault? parent types = none ↔ ∀ type ∈ types, fault? parent type = none := by
  induction types with
  | nil => simp [firstFault?]
  | cons type rest ih => simp [firstFault?, ih]

mutual

theorem exists_fault?_of_mem_family : ∀ (type : HostType) (parent : Option String),
    fault? parent type = none → ∀ inner ∈ type.family, ∃ outer, fault? outer inner = none
  | ⟨name, span, kind, visibility, doc, generics, supertypes, members, constructors, nested,
      closed, variants, constants, annotations⟩, parent, faultless, inner, member => by
    rw [HostModel.family_eq] at member
    rcases List.mem_cons.1 member with rfl | inside
    · exact ⟨parent, faultless⟩
    · have others := (fault?_eq_none faultless).2
      exact exists_fault?_of_mem_families nested _ (firstFault?_eq_none_iff.1 others) inner inside

/-- Types without faults have no faulty types inside them. -/
theorem exists_fault?_of_mem_families : ∀ (types : List HostType) (parent : Option String),
    (∀ type ∈ types, fault? parent type = none) →
      ∀ inner ∈ families types, ∃ outer, fault? outer inner = none
  | [], _, _, _, member => by cases member
  | type :: rest, parent, faultless, inner, member => by
    rcases List.mem_append.1 (show inner ∈ type.family ++ families rest from member) with
      first | later
    · exact exists_fault?_of_mem_family type parent (faultless type List.mem_cons_self) inner first
    · exact exists_fault?_of_mem_families rest parent
        (fun other listed => faultless other (List.mem_cons_of_mem _ listed)) inner later

end

theorem firstFault?_of_read {file text : String} {types : List HostType}
    (loaded : read file text = .ok types) : firstFault? none types = none := by
  unfold read at loaded
  split at loaded
  · cases loaded
  split at loaded
  · cases loaded
  split at loaded
  · cases loaded
  · next faultless =>
    cases loaded
    exact faultless

/-- No type of a snapshot is faulty, nested types included. -/
theorem exists_fault?_of_read {file text : String} {types : List HostType}
    (loaded : read file text = .ok types) {type : HostType} (declared : type ∈ families types) :
    ∃ parent, fault? parent type = none :=
  exists_fault?_of_mem_families types none
    (firstFault?_eq_none_iff.1 (firstFault?_of_read loaded)) type declared

end Snapshot

/-- The types of a loaded model keep the rules. -/
theorem HostModel.keepsRules_of_ofSources {sources : List (String × String)} {model : HostModel}
    (loaded : ofSources sources = .ok model) :
    ∀ type ∈ model.types, ∃ outer, type.KeepsRules outer := by
  obtain ⟨merge, merged, same⟩ := Outcome.bind_eq_ok_iff.1 loaded
  cases same
  refine Outcome.foldlM_preserves
    (fun merge => ∀ type ∈ merge.model.types, ∃ outer, type.KeepsRules outer) ?_ merged
    (by simp [empty])
  intro source before after added kept type member
  rw [Merge.addFile_eq] at added
  obtain ⟨types, readable, folded⟩ := Outcome.bind_eq_ok_iff.1 added
  rw [types_foldlM_add folded] at member
  rcases List.mem_append.1 member with earlier | new
  · exact kept type earlier
  · obtain ⟨parent, faultless⟩ := Snapshot.exists_fault?_of_read readable new
    exact ⟨parent, (Snapshot.fault?_eq_none faultless).1⟩

end TypeBridge
