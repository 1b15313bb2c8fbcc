import Mathlib
import TypeBridge.Host.HostModel
import TypeBridge.Proofs.Outcomes

/-!
# Merging snapshots

The declarations of some snapshot files in order: file by file, each type before the types declared
inside it.  They are merged one by one, and merging fails at the first one whose name occurred
before.
-/

namespace TypeBridge

/-- A host type with the file that declares it. -/
structure Declared where
  file : String
  type : HostType

def Declared.name (declared : Declared) : String :=
  declared.type.name

/-- The types that a snapshot file declares. -/
structure SnapshotFile where
  file : String
  types : List HostType

/-- A file with its text is read as a snapshot. -/
def SnapshotFile.IsReadFrom (source : String × String) (snapshot : SnapshotFile) : Prop :=
  snapshot.file = source.1 ∧ Snapshot.read source.1 source.2 = .ok snapshot.types

/-- The declarations of some snapshots, each type followed by the types inside it. -/
def declarationsOf (snapshots : List SnapshotFile) : List Declared :=
  snapshots.flatMap fun snapshot => (families snapshot.types).map (⟨snapshot.file, ·⟩)

/-- The first declaration whose name occurred before, and the declaration it occurred in. -/
def IsFirstRepetition (all : List Declared) (first again : Declared) : Prop :=
  ∃ front between rest, all = (front ++ first :: between) ++ again :: rest ∧
    again.name = first.name ∧ ((front ++ first :: between).map (·.name)).Nodup

section Repetitions

variable {all : List Declared} {first again : Declared}

theorem IsFirstRepetition.append (repeats : IsFirstRepetition all first again)
    (more : List Declared) : IsFirstRepetition (all ++ more) first again := by
  obtain ⟨front, between, rest, rfl, same, distinct⟩ := repeats
  exact ⟨front, between, rest ++ more, by simp, same, distinct⟩

theorem IsFirstRepetition.not_nodup (repeats : IsFirstRepetition all first again) :
    ¬ (all.map (·.name)).Nodup := by
  obtain ⟨front, between, rest, rfl, same, -⟩ := repeats
  intro distinct
  rw [List.map_append, List.nodup_append] at distinct
  refine distinct.2.2 first.name ?_ again.name ?_ same.symm
  · exact List.mem_map_of_mem (List.mem_append_right _ List.mem_cons_self)
  · exact List.mem_map_of_mem List.mem_cons_self

/-- Declarations have distinct names, or one of them is the first whose name occurred before. -/
theorem nodup_or_exists_isFirstRepetition (all : List Declared) :
    (all.map (·.name)).Nodup ∨ ∃ first again, IsFirstRepetition all first again := by
  induction all using List.reverseRecOn with
  | nil => exact .inl List.nodup_nil
  | append_singleton all last ih =>
    rcases ih with distinct | ⟨first, again, repeats⟩
    · by_cases taken : last.name ∈ all.map (·.name)
      · obtain ⟨first, member, same⟩ := List.mem_map.1 taken
        obtain ⟨front, between, rfl⟩ := List.append_of_mem member
        exact .inr ⟨first, last, front, between, [], rfl, same.symm, distinct⟩
      · left
        rw [List.map_append, List.nodup_append]
        refine ⟨distinct, List.nodup_singleton _, ?_⟩
        rintro name known _ single rfl
        obtain rfl : name = last.name := List.mem_singleton.1 single
        exact taken known
    · exact .inr ⟨first, again, repeats.append [last]⟩

end Repetitions

namespace HostModel

/-- Merge a declaration. -/
def Merge.addDeclared (merge : Merge) (declared : Declared) : Except InputError Merge :=
  merge.add declared.file declared.type

/-- What is merged are exactly these declarations. -/
structure Merge.Holds (merge : Merge) (all : List Declared) : Prop where
  types_eq : merge.model.types = all.map (·.type)
  origins_eq : merge.origins = all.map fun declared => (declared.name, declared.file)

namespace Merge

variable {merge : Merge} {all : List Declared}

theorem Holds.names_eq (holds : merge.Holds all) : merge.model.names = all.map (·.name) := by
  rw [names, holds.types_eq, List.map_map]
  rfl

theorem Holds.add (holds : merge.Holds all) {declared : Declared}
    (fresh : declared.name ∉ all.map (·.name)) :
    ∃ next, merge.addDeclared declared = .ok next ∧ next.Holds (all ++ [declared]) := by
  refine ⟨_, dif_neg (holds.names_eq ▸ fresh), ?_, ?_⟩
  · simp [push, holds.types_eq]
  · simp [holds.origins_eq, Declared.name]

/-- The file of the first occurrence of a name is found. -/
theorem lookup_origin {front between : List Declared} {first : Declared}
    (distinct : ((front ++ first :: between).map (·.name)).Nodup) :
    ((front ++ first :: between).map fun declared => (declared.name, declared.file)).lookup
      first.name = some first.file := by
  induction front with
  | nil => simp
  | cons other front ih =>
    rw [List.cons_append, List.map_cons, List.nodup_cons] at distinct
    have apart : first.name ≠ other.name := by
      rintro same
      exact distinct.1 (same ▸ List.mem_map_of_mem (List.mem_append_right _ List.mem_cons_self))
    rw [List.cons_append, List.map_cons, List.lookup_cons, beq_eq_false_iff_ne.2 apart]
    exact ih distinct.2

theorem Holds.add_again {front between : List Declared} {first again : Declared}
    (holds : merge.Holds (front ++ first :: between)) (same : again.name = first.name)
    (distinct : ((front ++ first :: between).map (·.name)).Nodup) :
    merge.addDeclared again = .error (.duplicate again.name first.file again.type.span) := by
  have taken : again.type.name ∈ merge.model.names := by
    rw [holds.names_eq, ← Declared.name, same]
    exact List.mem_map_of_mem (List.mem_append_right _ List.mem_cons_self)
  have origin : merge.origins.lookup again.type.name = some first.file := by
    rw [holds.origins_eq, ← Declared.name, same, lookup_origin distinct]
  rw [addDeclared, Merge.add, dif_pos taken, origin]
  rfl

/-- Declarations with new names are all merged. -/
theorem Holds.foldlM_eq_ok (holds : merge.Holds all) (more : List Declared)
    (distinct : ((all ++ more).map (·.name)).Nodup) :
    ∃ final, more.foldlM addDeclared merge = .ok final ∧ final.Holds (all ++ more) := by
  induction more generalizing merge all with
  | nil => exact ⟨merge, rfl, by rwa [List.append_nil]⟩
  | cons declared more ih =>
    rw [List.append_cons] at distinct ⊢
    have fresh : declared.name ∉ all.map (·.name) := by
      rw [List.map_append, List.map_append, List.append_assoc, List.nodup_append] at distinct
      intro known
      exact distinct.2.2 _ known declared.name (by simp) rfl
    obtain ⟨next, added, holds⟩ := holds.add fresh
    obtain ⟨final, merged, holds⟩ := ih holds distinct
    refine ⟨final, ?_, holds⟩
    rw [List.foldlM_cons, added]
    exact merged

end Merge

theorem holds_start : Merge.Holds ⟨empty, []⟩ [] :=
  ⟨rfl, rfl⟩

/-- The files are merged declaration by declaration. -/
theorem ofSources_eq {sources : List (String × String)} {snapshots : List SnapshotFile}
    (readable : List.Forall₂ SnapshotFile.IsReadFrom sources snapshots) :
    ofSources sources =
      (declarationsOf snapshots).foldlM Merge.addDeclared ⟨empty, []⟩ >>= fun merge =>
        .ok merge.model := by
  refine congrArg (· >>= fun merge : Merge => Except.ok merge.model) ?_
  generalize (⟨empty, []⟩ : Merge) = merge
  induction readable generalizing merge with
  | nil => rfl
  | @cons source snapshot sources snapshots read _ ih =>
    obtain ⟨file, read⟩ := read
    rw [List.foldlM_cons, Merge.addFile_eq, read, declarationsOf, List.flatMap_cons,
      List.foldlM_append, List.foldlM_map, file]
    exact congrArg ((families snapshot.types).foldlM (Merge.add source.1) merge >>= ·) (funext ih)

theorem exists_of_nodup {sources : List (String × String)} {snapshots : List SnapshotFile}
    (readable : List.Forall₂ SnapshotFile.IsReadFrom sources snapshots)
    (distinct : ((declarationsOf snapshots).map (·.name)).Nodup) :
    ∃ model, ofSources sources = .ok model ∧
      model.types = (declarationsOf snapshots).map (·.type) := by
  obtain ⟨final, merged, holds⟩ := holds_start.foldlM_eq_ok (declarationsOf snapshots) distinct
  refine ⟨final.model, ?_, holds.types_eq⟩
  rw [ofSources_eq readable, merged]
  rfl

theorem eq_error_of_isFirstRepetition {sources : List (String × String)}
    {snapshots : List SnapshotFile} {first again : Declared}
    (readable : List.Forall₂ SnapshotFile.IsReadFrom sources snapshots)
    (repeats : IsFirstRepetition (declarationsOf snapshots) first again) :
    ofSources sources = .error (.duplicate again.name first.file again.type.span) := by
  obtain ⟨front, between, rest, split, same, distinct⟩ := repeats
  obtain ⟨middle, merged, holds⟩ := holds_start.foldlM_eq_ok (front ++ first :: between) distinct
  rw [ofSources_eq readable, split, List.foldlM_append, merged]
  change (again :: rest).foldlM Merge.addDeclared middle >>= _ = _
  rw [List.foldlM_cons, holds.add_again same distinct]
  rfl

/-- Files that can be read are merged exactly when no name is declared twice, nested types included.
The model then has their types in order.  Otherwise the error is about the first declaration whose
name occurred before: it has that name, stands at it, and tells the file of the first occurrence. -/
theorem snapshots_merged_iff {sources : List (String × String)} {snapshots : List SnapshotFile}
    (readable : List.Forall₂ SnapshotFile.IsReadFrom sources snapshots) :
    ((∃ model, ofSources sources = .ok model) ↔
      ((declarationsOf snapshots).map (·.name)).Nodup) ∧
    (∀ model, ofSources sources = .ok model →
      model.types = (declarationsOf snapshots).map (·.type)) ∧
    ∀ error, ofSources sources = .error error ↔
      ∃ first again, IsFirstRepetition (declarationsOf snapshots) first again ∧
        error = .duplicate again.name first.file again.type.span := by
  rcases nodup_or_exists_isFirstRepetition (declarationsOf snapshots) with
    distinct | ⟨first, again, repeats⟩
  · obtain ⟨model, merged, types⟩ := exists_of_nodup readable distinct
    rw [merged]
    refine ⟨iff_of_true ⟨model, rfl⟩ distinct, ?_, ?_⟩
    · rintro _ ⟨⟩
      exact types
    · refine fun error => iff_of_false nofun ?_
      rintro ⟨first, again, repeats, -⟩
      exact repeats.not_nodup distinct
  · have failed := eq_error_of_isFirstRepetition readable repeats
    rw [failed]
    refine ⟨iff_of_false nofun repeats.not_nodup, nofun, fun error => ⟨?_, ?_⟩⟩
    · rintro ⟨⟩
      exact ⟨first, again, repeats, rfl⟩
    · rintro ⟨first', again', repeats', rfl⟩
      rw [← failed, eq_error_of_isFirstRepetition readable repeats']

/-- A type of some name and nothing but types inside it. -/
def plainlyDeclared (name : String) (span : Span) (nested : List HostType) : HostType :=
  { Snapshot.plainType with name, span, nested }

/-- Two files, the second of which declares a type inside of a type of the first one again. -/
def repeatingSources : List (String × String) :=
  [("a.toml", "[[types]]\nname=\"O\"\n[[types.nested]]\nname=\"O$I\""),
    ("b.toml", "[[types]]\nname=\"P\"\n[[types]]\nname=\"O$I\"")]

def repeatingSnapshots : List SnapshotFile :=
  [⟨"a.toml", [plainlyDeclared "O" ⟨15, 18⟩ [plainlyDeclared "O$I" ⟨41, 46⟩ []]]⟩,
    ⟨"b.toml", [plainlyDeclared "P" ⟨15, 18⟩ [], plainlyDeclared "O$I" ⟨34, 39⟩ []]⟩]

theorem repeatingSources_refused :
    List.Forall₂ SnapshotFile.IsReadFrom repeatingSources repeatingSnapshots ∧
      ofSources repeatingSources = .error (.duplicate "O$I" "a.toml" ⟨34, 39⟩) := by
  have readable : List.Forall₂ SnapshotFile.IsReadFrom repeatingSources repeatingSnapshots :=
    .cons ⟨rfl, by cbv⟩ (.cons ⟨rfl, by cbv⟩ .nil)
  refine ⟨readable, ((snapshots_merged_iff readable).2.2 _).2 ?_⟩
  exact ⟨⟨"a.toml", plainlyDeclared "O$I" ⟨41, 46⟩ []⟩,
    ⟨"b.toml", plainlyDeclared "O$I" ⟨34, 39⟩ []⟩,
    ⟨[⟨"a.toml", plainlyDeclared "O" ⟨15, 18⟩ [plainlyDeclared "O$I" ⟨41, 46⟩ []]⟩],
      [⟨"b.toml", plainlyDeclared "P" ⟨15, 18⟩ []⟩], [], rfl, rfl, by decide⟩, rfl⟩

end HostModel

end TypeBridge
