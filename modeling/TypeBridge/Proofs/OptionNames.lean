import Mathlib.Data.List.Basic
import Mathlib.Data.List.Induction
import TypeBridge.Recipe.Draft

/-!
# The options of a draft are those that are declared

Fields declare options, and so do parameters, constructor by constructor.  A name that is declared
again either completes the option that has it or is refused.  So what is gathered has one option for
each declared name, and the names stand in the order in which they are declared first.
-/

namespace TypeBridge

/-- A field that is annotated as an option. -/
def HostMember.isOption (member : HostMember) : Bool :=
  !member.isMethod && anyNamed member.annotations Annotation.option

/-- A parameter that is annotated as an option. -/
def HostParameter.isOption (parameter : HostParameter) : Bool :=
  anyNamed parameter.annotations Annotation.option

/-- The names of options as they are declared: by fields, then constructor by constructor. -/
def HostType.declaredOptions (type : HostType) : List String :=
  (type.members.filter (·.isOption)).map (·.name) ++
    type.constructors.flatMap fun constructor =>
      (constructor.parameters.filter (·.isOption)).map (·.name)

/-- The parameters of the first constructor that declares an option. -/
def HostType.leadingParameters (type : HostType) : List String :=
  ((type.constructors.find? fun constructor => constructor.parameters.any (·.isOption)).map
    fun constructor => constructor.parameters.map (·.name)).getD []

theorem HostType.mem_declaredOptions_iff {type : HostType} {name : String} :
    name ∈ type.declaredOptions ↔
      (∃ member ∈ type.members, member.isOption = true ∧ member.name = name) ∨
        ∃ constructor ∈ type.constructors, ∃ parameter ∈ constructor.parameters,
          parameter.isOption = true ∧ parameter.name = name := by
  simp [declaredOptions, and_assoc]

/-! ### First mentions -/

theorem eraseDups_concat_of_mem {names : List String} {name : String} (known : name ∈ names) :
    (names ++ [name]).eraseDups = names.eraseDups := by
  simp [List.eraseDups_append, List.removeAll, known]

theorem eraseDups_concat_of_notMem {names : List String} {name : String} (fresh : name ∉ names) :
    (names ++ [name]).eraseDups = names.eraseDups ++ [name] := by
  simp [List.eraseDups_append, List.removeAll, fresh, List.eraseDups_cons]

/-- Without repetitions, names stand in the order of their first mentions. -/
theorem pairwise_idxOf_eraseDups (names : List String) :
    names.eraseDups.Pairwise fun a b => names.idxOf a < names.idxOf b := by
  induction names using List.reverseRecOn with
  | nil => simp
  | append_singleton names name ih =>
    have kept : ∀ {a}, a ∈ names.eraseDups → (names ++ [name]).idxOf a = names.idxOf a :=
      fun member => List.idxOf_append_of_mem (List.mem_eraseDups.1 member)
    have still : names.eraseDups.Pairwise fun a b =>
        (names ++ [name]).idxOf a < (names ++ [name]).idxOf b :=
      ih.imp_of_mem fun left right earlier => by rwa [kept left, kept right]
    by_cases known : name ∈ names
    · rwa [eraseDups_concat_of_mem known]
    · rw [eraseDups_concat_of_notMem known, List.pairwise_append]
      refine ⟨still, List.pairwise_singleton _ _, fun a member b last => ?_⟩
      rw [List.mem_singleton.1 last, kept member, List.idxOf_append_of_notMem known]
      exact Nat.lt_add_right _ (List.idxOf_lt_length_of_mem (List.mem_eraseDups.1 member))

/-- Names that stand in an order of positions are distinct. -/
theorem nodup_of_pairwise_idxOf {order names : List String}
    (inOrder : names.Pairwise fun a b => order.idxOf a < order.idxOf b) : names.Nodup :=
  inOrder.imp fun earlier same => Nat.ne_of_lt earlier (congrArg order.idxOf same)

namespace RecipeDraft

variable {gathered : Gathered} {mentioned : List String} {option : OptionDraft}
  {options : List OptionDraft}

/-! ### Gathering -/

/-- Merging an option changes the names only by adding a new one at the end. -/
theorem names_mergeOption :
    (mergeOption option options).map (·.name) =
      if option.name ∈ options.map (·.name) then options.map (·.name)
      else options.map (·.name) ++ [option.name] := by
  induction options with
  | nil => simp [mergeOption]
  | cons first rest ih =>
    unfold mergeOption
    by_cases same : first.name = option.name
    · simp [same, OptionDraft.complete]
    · simp only [same, if_false, List.map_cons, ih, List.mem_cons, Ne.symm same, false_or]
      split <;> simp

theorem Gathered.options_refuse (gathered : Gathered) (name : String) :
    (gathered.refuse name).options = gathered.options := by
  unfold refuse
  split <;> rfl

/-- The options gathered so far have the names mentioned so far, each at its first mention. -/
def Gathered.Lists (gathered : Gathered) (mentioned : List String) : Prop :=
  gathered.options.map (·.name) = mentioned.eraseDups

theorem Gathered.Lists.mem_iff (lists : gathered.Lists mentioned) {name : String} :
    name ∈ gathered.options.map (·.name) ↔ name ∈ mentioned := by
  rw [lists, List.mem_eraseDups]

theorem Gathered.Lists.refuse (lists : gathered.Lists mentioned) {name : String}
    (known : name ∈ mentioned) : (gathered.refuse name).Lists (mentioned ++ [name]) := by
  rw [Lists, options_refuse, lists, eraseDups_concat_of_mem known]

theorem Gathered.Lists.addField (lists : gathered.Lists mentioned) (option : OptionDraft) :
    (gathered.addField option).Lists (mentioned ++ [option.name]) := by
  unfold Gathered.addField
  split
  · next taken =>
    have known : option.name ∈ gathered.options.map (·.name) := by
      simpa [List.any_eq_true] using taken
    exact lists.refuse (lists.mem_iff.1 known)
  · next free =>
    have fresh : option.name ∉ gathered.options.map (·.name) := by
      simpa [List.any_eq_true] using free
    rw [lists.mem_iff] at fresh
    rw [Lists, List.map_append, lists, eraseDups_concat_of_notMem fresh]
    rfl

theorem Gathered.Lists.merge (lists : gathered.Lists mentioned) (option : OptionDraft) :
    { gathered with options := mergeOption option gathered.options }.Lists
      (mentioned ++ [option.name]) := by
  rw [Lists, names_mergeOption]
  by_cases known : option.name ∈ mentioned
  · rw [if_pos (lists.mem_iff.2 known), lists, eraseDups_concat_of_mem known]
  · rw [if_neg fun present => known (lists.mem_iff.1 present), lists,
      eraseDups_concat_of_notMem known]

theorem Gathered.Lists.addParameters {seen : List String} (lists : gathered.Lists mentioned)
    (before : ∀ name ∈ seen, name ∈ mentioned) (options : List OptionDraft) :
    (gathered.addParameters seen options).Lists (mentioned ++ options.map (·.name)) := by
  induction options generalizing gathered mentioned seen with
  | nil =>
    rw [List.map_nil, List.append_nil]
    exact lists
  | cons option rest ih =>
    rw [List.map_cons, List.append_cons]
    unfold Gathered.addParameters
    split
    · next repeated =>
      have known : option.name ∈ mentioned := before _ (by simpa using repeated)
      exact ih (lists.refuse known) fun name member => List.mem_append_left _ (before name member)
    · refine ih (lists.merge option) fun name member => ?_
      rcases List.mem_cons.1 member with rfl | earlier
      · exact List.mem_append_right _ (List.mem_singleton.2 rfl)
      · exact List.mem_append_left _ (before name earlier)

theorem lists_foldl_addField (lists : gathered.Lists mentioned) (options : List OptionDraft) :
    (options.foldl Gathered.addField gathered).Lists (mentioned ++ options.map (·.name)) := by
  induction options generalizing gathered mentioned with
  | nil =>
    rw [List.map_nil, List.append_nil]
    exact lists
  | cons option rest ih =>
    rw [List.map_cons, List.append_cons]
    exact ih (lists.addField option)

theorem lists_foldl_addParameters (lists : gathered.Lists mentioned)
    (constructors : List HostConstructor) :
    (constructors.foldl
      (fun gathered constructor => gathered.addParameters [] (optionsOf constructor))
      gathered).Lists
        (mentioned ++ constructors.flatMap fun constructor =>
          (optionsOf constructor).map (·.name)) := by
  induction constructors generalizing gathered mentioned with
  | nil =>
    rw [List.flatMap_nil, List.append_nil]
    exact lists
  | cons constructor rest ih =>
    rw [List.flatMap_cons, ← List.append_assoc]
    exact ih (lists.addParameters (by simp) _)

theorem map_name_ofMember? (members : List HostMember) :
    (members.filterMap OptionDraft.ofMember?).map (·.name) =
      (members.filter (·.isOption)).map (·.name) := by
  induction members with
  | nil => rfl
  | cons member rest ih =>
    rw [List.filterMap_cons, List.filter_cons, OptionDraft.ofMember?, HostMember.isOption, anyNamed]
    cases member.isMethod with
    | true => simpa using ih
    | false =>
      cases firstNamed? member.annotations Annotation.option with
      | none => simpa using ih
      | some mark => simpa [OptionDraft.ofMark] using ih

theorem map_name_optionsOf (constructor : HostConstructor) :
    (optionsOf constructor).map (·.name) =
      (constructor.parameters.filter (·.isOption)).map (·.name) := by
  rw [optionsOf]
  induction constructor.parameters with
  | nil => rfl
  | cons parameter rest ih =>
    rw [List.filterMap_cons, List.filter_cons, OptionDraft.ofParameter?, HostParameter.isOption,
      anyNamed]
    cases firstNamed? parameter.annotations Annotation.option with
    | none => simpa using ih
    | some mark => simpa [OptionDraft.ofMark] using ih

theorem isEmpty_optionsOf (constructor : HostConstructor) :
    (!(optionsOf constructor).isEmpty) = constructor.parameters.any (·.isOption) := by
  have names := congrArg List.isEmpty (map_name_optionsOf constructor)
  rw [List.isEmpty_map, List.isEmpty_map] at names
  rw [names, Bool.eq_iff_iff]
  simp [List.filter_eq_nil_iff]

/-- The names gathered from a type are the declared ones, each where it is declared first. -/
theorem names_gather (type : HostType) :
    (gather type).options.map (·.name) = type.declaredOptions.eraseDups := by
  have start : (⟨[], []⟩ : Gathered).Lists [] := rfl
  have fields := lists_foldl_addField start (type.members.filterMap OptionDraft.ofMember?)
  have all := lists_foldl_addParameters fields type.constructors
  simp only [List.nil_append, map_name_ofMember?, map_name_optionsOf] at all
  exact all

theorem nodup_names_gather (type : HostType) : ((gather type).options.map (·.name)).Nodup := by
  rw [names_gather]
  exact nodup_of_pairwise_idxOf (pairwise_idxOf_eraseDups _)

theorem nodup_names_arrange {parameters : List String} (distinct : (options.map (·.name)).Nodup) :
    ((arrange parameters options).map (·.name)).Nodup :=
  ((List.mergeSort_perm options _).map _).nodup_iff.2 distinct

/-- The options of a draft have distinct names. -/
theorem nodup_names_ofType (type : HostType) :
    ((ofType type).options.map (·.name)).Nodup := by
  unfold ofType
  dsimp only
  split
  · exact nodup_names_gather type
  · exact nodup_names_arrange (nodup_names_gather type)

end RecipeDraft

end TypeBridge
