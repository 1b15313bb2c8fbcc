import TypeBridge.Host.Snapshot
import TypeBridge.Search.Keyed
import TypeBridge.Search.Walk

/-!
# The host model

All types of a list of snapshot files, nested types included, each name once.
-/

namespace TypeBridge

mutual

/-- A type followed by the types inside it. -/
def HostType.family : HostType → List HostType
  | ⟨name, span, kind, visibility, doc, generics, supertypes, members, constructors, nested,
      closed, variants, constants, annotations⟩ =>
    ⟨name, span, kind, visibility, doc, generics, supertypes, members, constructors, nested,
      closed, variants, constants, annotations⟩ :: families nested

def families : List HostType → List HostType
  | [] => []
  | type :: rest => type.family ++ families rest

end

theorem HostModel.family_eq (type : HostType) : type.family = type :: families type.nested := by
  cases type
  rfl

theorem families_append (types others : List HostType) :
    families (types ++ others) = families types ++ families others := by
  induction types with
  | nil => rfl
  | cons type rest ih => rw [List.cons_append, families, ih, families, List.append_assoc]

/-- Host types with distinct names, each before the types inside it. -/
structure HostModel where
  types : List HostType
  distinct : (types.map (·.name)).Nodup

namespace HostModel

def empty : HostModel :=
  ⟨[], by simp⟩

def names (model : HostModel) : List String :=
  model.types.map (·.name)

def get? (model : HostModel) (name : String) : Option HostType :=
  model.types.find? (·.name == name)

theorem get?_eq_some_iff {model : HostModel} {name : String} {type : HostType} :
    model.get? name = some type ↔ type ∈ model.types ∧ type.name = name :=
  Search.find?_key_eq_some_iff model.distinct

theorem get?_eq_none_iff {model : HostModel} {name : String} :
    model.get? name = none ↔ name ∉ model.names :=
  Search.find?_key_eq_none_iff

theorem mem_names_of_get? {model : HostModel} {name : String} {type : HostType}
    (found : model.get? name = some type) : name ∈ model.names := by
  obtain ⟨known, rfl⟩ := get?_eq_some_iff.1 found
  exact List.mem_map_of_mem known

def contains (model : HostModel) (name : String) : Bool :=
  (model.get? name).isSome

theorem contains_iff {model : HostModel} {name : String} :
    model.contains name = true ↔ name ∈ model.names := by
  rw [contains, ← Option.ne_none_iff_isSome, ne_eq, get?_eq_none_iff, Decidable.not_not]

/-- Append a type with a new name. -/
def push (model : HostModel) (type : HostType) (fresh : type.name ∉ model.names) : HostModel where
  types := model.types ++ [type]
  distinct := by
    rw [List.map_append, List.nodup_append]
    refine ⟨model.distinct, by simp, ?_⟩
    intro name known other last same
    simp only [List.map_cons, List.map_nil, List.mem_singleton] at last
    exact fresh (last ▸ same ▸ known)

def supertypeNames (model : HostModel) (name : String) : List String :=
  ((model.get? name).map (·.supertypeNames)).getD []

/-- Whether declared supertypes lead from one name to another.  The walk ends at names without a
type. -/
def isAssignable (model : HostModel) (sub super : String) : Bool :=
  Search.reaches model.supertypeNames model.names sub super

/-- Types merged so far, and the file that declares each name. -/
structure Merge where
  model : HostModel
  origins : List (String × String)

namespace Merge

/-- Merge one type of a file. -/
def add (file : String) (merge : Merge) (type : HostType) : Except InputError Merge :=
  if taken : type.name ∈ merge.model.names then
    .error (.duplicate type.name ((merge.origins.lookup type.name).getD file) type.span)
  else
    .ok ⟨merge.model.push type taken, merge.origins ++ [(type.name, file)]⟩

/-- Put types onto a pile one after another, the last one first, so that the first one is on top. -/
def stacked (pile types : List HostType) : List HostType :=
  types.reverse.foldl (fun pile type => type :: pile) pile

theorem stacked_eq (pile types : List HostType) : stacked pile types = types ++ pile := by
  simp [stacked]

/-- Merge the types of a pile from its top.  The types declared inside a merged type take its
place. -/
def drain (file : String) : (merge : Merge) → (pile : List HostType) → Except InputError Merge
  | merge, [] => .ok merge
  | merge, type :: pile => do
    let merge ← merge.add file type
    drain file merge (stacked pile type.nested)
termination_by _ pile => (families pile).length
decreasing_by simp [stacked_eq, families_append, families, family_eq]

/-- Read and merge one file. -/
def addFile (merge : Merge) (source : String × String) : Except InputError Merge := do
  let types ← Snapshot.read source.1 source.2
  drain source.1 merge (stacked [] types)

/-- A pile is merged in the order in which each type precedes the types inside it. -/
theorem drain_eq_foldlM (file : String) (merge : Merge) (pile : List HostType) :
    drain file merge pile = (families pile).foldlM (add file) merge := by
  induction merge, pile using drain.induct with
  | case1 merge => rw [drain]; rfl
  | case2 merge type pile ih =>
    rw [drain, families, family_eq, List.cons_append, List.foldlM_cons]
    refine congrArg (merge.add file type >>= ·) (funext fun next => ?_)
    rw [ih, stacked_eq, families_append]

theorem addFile_eq (merge : Merge) (source : String × String) :
    merge.addFile source =
      Snapshot.read source.1 source.2 >>= fun types =>
        (families types).foldlM (add source.1) merge := by
  refine congrArg (Snapshot.read source.1 source.2 >>= ·) (funext fun types => ?_)
  rw [drain_eq_foldlM, stacked_eq, List.append_nil]

end Merge

/-- Read snapshots given as file names with contents. -/
def ofSources (sources : List (String × String)) : Except InputError HostModel := do
  let merge ← sources.foldlM Merge.addFile ⟨empty, []⟩
  return merge.model

end HostModel

end TypeBridge
