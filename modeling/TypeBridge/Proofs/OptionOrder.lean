import Mathlib
import TypeBridge.Host.Snapshot
import TypeBridge.Proofs.OptionNames

/-!
# Options follow the first constructor that takes some

The options of a draft are gathered in declaration order: those of fields, then those of parameters,
constructor by constructor, each name where it is declared first.  A stable sort then moves those
that the first constructor with an option names to the front, in the order of its parameters.  So the
host can be called by position: where that constructor takes nothing but options, these come first.
-/

namespace TypeBridge

namespace RecipeDraft

/-! ### Arranging -/

/-- Names stand in the order of some parameters as far as these go, and then in the order of some
declarations. -/
def IsArranged (parameters declared names : List String) : Prop :=
  ∃ first rest, names = first ++ rest ∧
    (∀ name ∈ first, name ∈ parameters) ∧ (∀ name ∈ rest, name ∉ parameters) ∧
    (first.Pairwise fun a b => parameters.idxOf a < parameters.idxOf b) ∧
    rest.Pairwise fun a b => declared.idxOf a < declared.idxOf b

/-- A list in which a property is never met again once it fails is parted by it. -/
theorem filter_append_filter_not {α : Type} {p : α → Bool} {all : List α}
    (sorted : all.Pairwise fun a b => p b = true → p a = true) :
    all.filter p ++ all.filter (fun a => !p a) = all := by
  induction all with
  | nil => rfl
  | cons a rest ih =>
    rw [List.pairwise_cons] at sorted
    cases holds : p a with
    | true => simp [holds, ih sorted.2]
    | false =>
      have none : rest.filter p = [] := by
        refine List.filter_eq_nil_iff.2 fun b member met => ?_
        rw [sorted.1 b member met] at holds
        cases holds
      have whole := ih sorted.2
      rw [none, List.nil_append] at whole
      simp [holds, none, whole]

section

variable {parameters declared : List String} {options : List OptionDraft}

theorem mayPrecede_trans (a b c : OptionDraft) (first : mayPrecede parameters a b = true)
    (second : mayPrecede parameters b c = true) : mayPrecede parameters a c = true := by
  rw [mayPrecede, decide_eq_true_eq] at *
  exact Nat.le_trans first second

theorem mayPrecede_total (a b : OptionDraft) :
    (mayPrecede parameters a b || mayPrecede parameters b a) = true := by
  simpa [mayPrecede] using Nat.le_total _ _

/-- Arranging leaves the options that no parameter names in their order. -/
theorem filter_not_arrange :
    (arrange parameters options).filter (fun option => !parameters.contains option.name) =
      options.filter fun option => !parameters.contains option.name := by
  have level : (options.filter fun option => !parameters.contains option.name).Pairwise
      fun a b => mayPrecede parameters a b = true := by
    refine List.pairwise_of_forall_mem_list fun a left b right => ?_
    have unnamed : b.name ∉ parameters := by simpa using (List.mem_filter.1 right).2
    rw [mayPrecede, decide_eq_true_eq, List.idxOf_eq_length_iff.2 unnamed]
    exact List.idxOf_le_length
  -- the sort is stable: elements that stand in order already stay so
  have stays := (List.sublist_mergeSort mayPrecede_trans mayPrecede_total level
    List.filter_sublist).filter fun option => !parameters.contains option.name
  rw [List.filter_filter] at stays
  simp only [Bool.and_self] at stays
  refine (stays.eq_of_length ?_).symm
  exact ((List.mergeSort_perm options _).filter _).length_eq.symm

/-- Arranged options begin with those that have a parameter. -/
theorem filter_append_filter_arrange :
    (arrange parameters options).filter (fun option => parameters.contains option.name) ++
      options.filter (fun option => !parameters.contains option.name) =
        arrange parameters options := by
  rw [← filter_not_arrange]
  refine filter_append_filter_not ?_
  refine (List.pairwise_mergeSort mayPrecede_trans mayPrecede_total options).imp ?_
  intro a b precedes named
  rw [mayPrecede, decide_eq_true_eq] at precedes
  rw [List.contains_iff_mem, ← List.idxOf_lt_length_iff] at named ⊢
  omega

/-- Arranging puts options into the order of the parameters that name them. -/
theorem pairwise_filter_arrange (distinct : (options.map (·.name)).Nodup) :
    (((arrange parameters options).filter fun option => parameters.contains option.name).map
      (·.name)).Pairwise fun a b => parameters.idxOf a < parameters.idxOf b := by
  have sorted : (arrange parameters options).Pairwise fun a b => mayPrecede parameters a b = true :=
    List.pairwise_mergeSort mayPrecede_trans mayPrecede_total options
  have apart : (arrange parameters options).Pairwise fun a b => a.name ≠ b.name :=
    List.pairwise_map.1 (nodup_names_arrange distinct)
  rw [List.pairwise_map]
  refine ((sorted.and apart).filter _).imp_of_mem ?_
  rintro a b left - ⟨precedes, differs⟩
  have named : a.name ∈ parameters := by simpa using (List.mem_filter.1 left).2
  rw [mayPrecede, decide_eq_true_eq] at precedes
  exact Nat.lt_of_le_of_ne precedes fun same => differs ((List.idxOf_inj named).1 same)

theorem isArranged_arrange (listed : options.map (·.name) = declared.eraseDups) :
    IsArranged parameters declared ((arrange parameters options).map (·.name)) := by
  have inOrder := pairwise_idxOf_eraseDups declared
  have distinct : (options.map (·.name)).Nodup := by
    rw [listed]
    exact nodup_of_pairwise_idxOf inOrder
  refine ⟨_, (options.filter fun option => !parameters.contains option.name).map (·.name),
    ?_, ?_, ?_, pairwise_filter_arrange distinct, ?_⟩
  · rw [← List.map_append, filter_append_filter_arrange]
  · intro name member
    obtain ⟨option, kept, rfl⟩ := List.mem_map.1 member
    simpa using (List.mem_filter.1 kept).2
  · intro name member
    obtain ⟨option, kept, rfl⟩ := List.mem_map.1 member
    simpa using (List.mem_filter.1 kept).2
  · rw [← listed] at inOrder
    exact inOrder.sublist (List.filter_sublist.map _)

theorem mem_names_arrange {name : String} :
    name ∈ (arrange parameters options).map (·.name) ↔ name ∈ options.map (·.name) :=
  ((List.mergeSort_perm options _).map _).mem_iff

/-- Where no parameter has a say, arranging changes nothing. -/
theorem arrange_nil : arrange [] options = options :=
  List.mergeSort_of_pairwise (List.pairwise_of_forall fun a b => by simp [mayPrecede])

/-- Parameters that all have an option are what an arrangement begins with. -/
theorem IsArranged.isPrefix {names : List String} (arranged : IsArranged parameters declared names)
    (distinct : parameters.Nodup) (all : ∀ name ∈ parameters, name ∈ names) :
    parameters <+: names := by
  obtain ⟨first, rest, rfl, named, unnamed, inOrder, -⟩ := arranged
  have sorted : parameters.Pairwise fun a b => parameters.idxOf a < parameters.idxOf b := by
    rw [List.pairwise_iff_getElem]
    intro i j _ _ less
    rwa [distinct.idxOf_getElem, distinct.idxOf_getElem]
  have same : ∀ name, name ∈ first ↔ name ∈ parameters := by
    refine fun name => ⟨named name, fun member => ?_⟩
    rcases List.mem_append.1 (all name member) with inFirst | inRest
    · exact inFirst
    · exact absurd member (unnamed name inRest)
  have equal : first = parameters :=
    List.Perm.eq_of_pairwise (fun a b _ _ left right => absurd left (Nat.lt_asymm right)) inOrder
      sorted ((List.perm_ext_iff_of_nodup (nodup_of_pairwise_idxOf inOrder) distinct).2 same)
  rw [equal]
  exact List.prefix_append parameters rest

end

/-- The options of a draft are what is gathered, arranged by the parameters of the first constructor
that declares an option. -/
theorem options_ofType (type : HostType) :
    (ofType type).options = arrange type.leadingParameters (gather type).options := by
  unfold ofType HostType.leadingParameters
  simp only [isEmpty_optionsOf]
  cases type.constructors.find? fun constructor => constructor.parameters.any (·.isOption) with
  | none => exact arrange_nil.symm
  | some constructor => rfl

end RecipeDraft

/-- Names are those of the options that a type declares, in the order of the constructor to call. -/
structure HostType.OrdersOptions (type : HostType) (names : List String) : Prop where
  distinct : names.Nodup
  /-- They are the names of annotated fields and of annotated parameters. -/
  mem_iff : ∀ name, name ∈ names ↔
    (∃ member ∈ type.members, member.isOption = true ∧ member.name = name) ∨
      ∃ constructor ∈ type.constructors, ∃ parameter ∈ constructor.parameters,
        parameter.isOption = true ∧ parameter.name = name
  arranged : RecipeDraft.IsArranged type.leadingParameters type.declaredOptions names
  /-- A constructor that takes nothing but options, and is the first to take one, takes the first
  names by position. -/
  positional : ∀ constructor,
    (type.constructors.find? fun constructor => constructor.parameters.any (·.isOption)) =
        some constructor →
      (∀ parameter ∈ constructor.parameters, parameter.isOption = true) →
        (constructor.parameters.map (·.name)).Nodup →
          constructor.parameters.map (·.name) <+: names

/-- The options of a draft are those that are declared, in the order of the first constructor that
declares one. -/
theorem options_follow_constructor (type : HostType) :
    type.OrdersOptions ((RecipeDraft.ofType type).options.map (·.name)) := by
  have arranged : RecipeDraft.IsArranged type.leadingParameters type.declaredOptions
      ((RecipeDraft.ofType type).options.map (·.name)) := by
    rw [RecipeDraft.options_ofType]
    exact RecipeDraft.isArranged_arrange (RecipeDraft.names_gather type)
  have declared : ∀ name, name ∈ (RecipeDraft.ofType type).options.map (·.name) ↔
      name ∈ type.declaredOptions := by
    intro name
    rw [RecipeDraft.options_ofType, RecipeDraft.mem_names_arrange, RecipeDraft.names_gather,
      List.mem_eraseDups]
  refine ⟨RecipeDraft.nodup_names_ofType type, fun name => ?_, arranged, ?_⟩
  · rw [declared, HostType.mem_declaredOptions_iff]
  · intro constructor leading all distinct
    have parameters : type.leadingParameters = constructor.parameters.map (·.name) := by
      rw [HostType.leadingParameters, leading]
      rfl
    rw [parameters] at arranged
    refine arranged.isPrefix distinct fun name member => ?_
    obtain ⟨parameter, listed, rfl⟩ := List.mem_map.1 member
    rw [declared, HostType.mem_declaredOptions_iff]
    exact .inr ⟨constructor, List.mem_of_find?_eq_some leading, parameter, listed,
      all parameter listed, rfl⟩

/-- A type whose fields stand in another order than the second constructor takes them, which is the
first one to take options. -/
def endpoint : HostType :=
  { Snapshot.plainType with
    members := [
      { Snapshot.plainMember with name := "port", annotations := [⟨"Option", []⟩] },
      { Snapshot.plainMember with name := "state" },
      { Snapshot.plainMember with name := "host", annotations := [⟨"Option", []⟩] }]
    constructors := [
      ⟨.public, [⟨"other", .named "Int" [], false, []⟩]⟩,
      ⟨.public, [
        ⟨"host", .named "String" [], false, [⟨"Option", []⟩]⟩,
        ⟨"port", .named "Int" [], false, [⟨"Option", []⟩]⟩]⟩,
      ⟨.public, [⟨"path", .named "String" [], false, [⟨"Option", []⟩]⟩]⟩] }

theorem endpoint_ordersOptions :
    (RecipeDraft.ofType endpoint).options.map (·.name) = ["host", "port", "path"] ∧
      endpoint.OrdersOptions ["host", "port", "path"] ∧
      ["host", "port"] <+: (RecipeDraft.ofType endpoint).options.map (·.name) := by
  have names : (RecipeDraft.ofType endpoint).options.map (·.name) = ["host", "port", "path"] := by
    cbv
  have orders := options_follow_constructor endpoint
  have leading : ["host", "port"] <+: (RecipeDraft.ofType endpoint).options.map (·.name) :=
    orders.positional endpoint.constructors[1] (by rfl) (by decide) (by decide)
  rw [names] at orders
  exact ⟨names, orders, leading⟩

end TypeBridge
