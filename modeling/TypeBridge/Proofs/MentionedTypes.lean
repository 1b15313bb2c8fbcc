import TypeBridge.Proofs.NodeReading

/-!
# Which types a host type mentions

A signature meets the types that may be declared among those it names, and through each one that it
names without arguments the types met in the bounds of its parameters.  Resolving a signature
mentions what it meets: that no type is entered while it is being expanded loses nothing, since its
bounds are met already.
-/

namespace TypeBridge

namespace HostView

/-- A type that may be declared is met while a signature is resolved.  The bounds of types in
`closed` are not entered. -/
inductive MeetsOutside (view : HostView) (closed : List String) : Placed → String → Prop
  | anyBelow {scope : List String} {bound : Signature} {met : String}
      (inner : MeetsOutside view closed ⟨scope, bound⟩ met) :
      MeetsOutside view closed ⟨scope, .anyBelow bound⟩ met
  | anyAbove {scope : List String} {bound : Signature} {met : String}
      (inner : MeetsOutside view closed ⟨scope, bound⟩ met) :
      MeetsOutside view closed ⟨scope, .anyAbove bound⟩ met
  | array {scope : List String} {element : Signature} {met : String}
      (inner : MeetsOutside view closed ⟨scope, element⟩ met) :
      MeetsOutside view closed ⟨scope, .array element⟩ met
  /-- The arguments of a built-in type. -/
  | builtin {scope : List String} {name met : String} {args : List Signature} {arg : Signature}
      {builtin : Builtin} (known : Builtin.ofName? name = some builtin) (member : arg ∈ args)
      (inner : MeetsOutside view closed ⟨scope, arg⟩ met) :
      MeetsOutside view closed ⟨scope, .named name args⟩ met
  /-- The type itself, unless the name is a type variable. -/
  | itself {scope : List String} {name : String} {args : List Signature}
      (free : args = [] → name ∉ scope) (foreign : Builtin.ofName? name = none)
      (admits : view.Admits name) : MeetsOutside view closed ⟨scope, .named name args⟩ name
  | argument {scope : List String} {name met : String} {args : List Signature} {arg : Signature}
      (foreign : Builtin.ofName? name = none) (admits : view.Admits name) (member : arg ∈ args)
      (inner : MeetsOutside view closed ⟨scope, arg⟩ met) :
      MeetsOutside view closed ⟨scope, .named name args⟩ met
  /-- The bounds of the parameters of a type that is given no arguments. -/
  | bound {scope : List String} {name met : String} {type : HostType} {placed : Placed}
      (free : name ∉ scope) (foreign : Builtin.ofName? name = none)
      (admitted : view.admitted? name = some type) (entered : name ∉ closed)
      (member : placed ∈ boundsIn (view.varsIn name type.generics) type.generics)
      (inner : MeetsOutside view closed placed met) :
      MeetsOutside view closed ⟨scope, .named name []⟩ met

/-- A type that may be declared is met while a signature is resolved. -/
abbrev Meets (view : HostView) : Placed → String → Prop :=
  view.MeetsOutside []

namespace MeetsOutside

variable {view : HostView} {closed scope : List String} {met name : String}

theorem not_anything : ¬ view.MeetsOutside closed ⟨scope, .anything⟩ met := by
  rintro ⟨⟩

theorem anyBelow_iff {bound : Signature} :
    view.MeetsOutside closed ⟨scope, .anyBelow bound⟩ met ↔
      view.MeetsOutside closed ⟨scope, bound⟩ met := by
  refine ⟨?_, .anyBelow⟩
  rintro (inner | _)
  exact inner

theorem anyAbove_iff {bound : Signature} :
    view.MeetsOutside closed ⟨scope, .anyAbove bound⟩ met ↔
      view.MeetsOutside closed ⟨scope, bound⟩ met := by
  refine ⟨?_, .anyAbove⟩
  rintro (_ | inner)
  exact inner

theorem array_iff {element : Signature} :
    view.MeetsOutside closed ⟨scope, .array element⟩ met ↔
      view.MeetsOutside closed ⟨scope, element⟩ met := by
  refine ⟨?_, .array⟩
  rintro (_ | _ | inner)
  exact inner

theorem not_var (inScope : name ∈ scope) :
    ¬ view.MeetsOutside closed ⟨scope, .named name []⟩ met := by
  intro meets
  cases meets with
  | builtin _ member _ => cases member
  | itself free _ _ => exact free rfl inScope
  | argument _ _ member _ => cases member
  | bound free _ _ _ _ _ => exact free inScope

theorem builtin_iff {args : List Signature} {builtin : Builtin}
    (known : Builtin.ofName? name = some builtin) :
    view.MeetsOutside closed ⟨scope, .named name args⟩ met ↔
      ∃ placed ∈ args.map (Placed.mk scope), view.MeetsOutside closed placed met := by
  simp only [List.mem_map, exists_exists_and_eq_and]
  constructor
  · intro meets
    cases meets with
    | builtin _ member inner => exact ⟨_, member, inner⟩
    | itself _ foreign _ | argument foreign _ _ _ | bound _ foreign _ _ _ _ =>
      simp [known] at foreign
  · rintro ⟨arg, member, inner⟩
    exact .builtin known member inner

theorem not_hidden {args : List Signature} (foreign : Builtin.ofName? name = none)
    (excluded : view.admitted? name = none) :
    ¬ view.MeetsOutside closed ⟨scope, .named name args⟩ met := by
  have inadmissible : ¬ view.Admits name := by
    rw [← isSome_admitted?_iff, excluded]
    simp
  intro meets
  cases meets with
  | builtin known _ _ => simp [foreign] at known
  | itself _ _ admits => exact inadmissible admits
  | argument _ admits _ _ => exact inadmissible admits
  | bound _ _ admitted _ _ _ => exact inadmissible (admits_of_admitted? admitted)

theorem applied_iff {args : List Signature} {type : HostType} (given : args ≠ [])
    (foreign : Builtin.ofName? name = none) (admitted : view.admitted? name = some type) :
    view.MeetsOutside closed ⟨scope, .named name args⟩ met ↔
      met = name ∨ ∃ placed ∈ args.map (Placed.mk scope), view.MeetsOutside closed placed met := by
  simp only [List.mem_map, exists_exists_and_eq_and]
  constructor
  · intro meets
    cases meets with
    | builtin known _ _ => simp [foreign] at known
    | itself => exact Or.inl rfl
    | argument _ _ member inner => exact Or.inr ⟨_, member, inner⟩
    | bound => exact absurd rfl given
  · rintro (rfl | ⟨arg, member, inner⟩)
    · exact .itself (fun none => absurd none given) foreign (admits_of_admitted? admitted)
    · exact .argument foreign (admits_of_admitted? admitted) member inner

theorem raw_iff {type : HostType} (free : name ∉ scope) (foreign : Builtin.ofName? name = none)
    (admitted : view.admitted? name = some type) :
    view.MeetsOutside closed ⟨scope, .named name []⟩ met ↔
      met = name ∨ name ∉ closed ∧
        ∃ placed ∈ boundsIn (view.varsIn name type.generics) type.generics,
          view.MeetsOutside closed placed met := by
  constructor
  · intro meets
    cases meets with
    | builtin known _ _ => simp [foreign] at known
    | itself => exact Or.inl rfl
    | argument _ _ member _ => cases member
    | bound _ _ admitted' entered member inner =>
      obtain rfl := Option.some.inj (admitted.symm.trans admitted')
      exact Or.inr ⟨entered, _, member, inner⟩
  · rintro (rfl | ⟨entered, placed, member, inner⟩)
    · exact .itself (fun _ => free) foreign (admits_of_admitted? admitted)
    · exact .bound free foreign admitted entered member inner

theorem mono {placed : Placed} (meets : view.MeetsOutside (name :: closed) placed met) :
    view.MeetsOutside closed placed met := by
  induction meets with
  | anyBelow _ ih => exact .anyBelow ih
  | anyAbove _ ih => exact .anyAbove ih
  | array _ ih => exact .array ih
  | builtin known member _ ih => exact .builtin known member ih
  | itself free foreign admits => exact .itself free foreign admits
  | argument foreign admits member _ ih => exact .argument foreign admits member ih
  | bound free foreign admitted entered member _ ih =>
    exact .bound free foreign admitted (List.not_mem_of_not_mem_cons entered) member ih

/-- Whatever is met through the bounds of a type is met in these bounds without entering the type
once more. -/
theorem avoid {type : HostType} {placed : Placed}
    (admitted : view.admitted? name = some type)
    (meets : view.MeetsOutside closed placed met) :
    view.MeetsOutside (name :: closed) placed met ∨
      ∃ bound ∈ boundsIn (view.varsIn name type.generics) type.generics,
        view.MeetsOutside (name :: closed) bound met := by
  induction meets with
  | anyBelow _ ih => exact ih.imp_left .anyBelow
  | anyAbove _ ih => exact ih.imp_left .anyAbove
  | array _ ih => exact ih.imp_left .array
  | builtin known member _ ih => exact ih.imp_left (.builtin known member)
  | itself free foreign admits => exact Or.inl (.itself free foreign admits)
  | argument foreign admits member _ ih => exact ih.imp_left (.argument foreign admits member)
  | @bound _ other _ type' _ free foreign admitted' entered member _ ih =>
    rcases ih with inner | found
    · by_cases same : other = name
      · subst same
        obtain rfl := Option.some.inj (admitted.symm.trans admitted')
        exact Or.inr ⟨_, member, inner⟩
      · have outside : other ∉ name :: closed := by simp [same, entered]
        exact Or.inl (.bound free foreign admitted' outside member inner)
    · exact Or.inr found

end MeetsOutside

variable {view : HostView}

/-- A run mentions the types that its signatures meet outside of the set that it starts from. -/
theorem Resolves.mem_mentioned_iff {busy mentioned after : List String} {placed : List Placed}
    {types : List ResolvedType} (resolves : view.Resolves busy placed types mentioned after)
    (met : String) :
    met ∈ mentioned ↔ ∃ signature ∈ placed, view.MeetsOutside busy signature met := by
  induction resolves with
  | nil => simp
  | anything _ ih =>
    rw [ih, List.exists_mem_cons_iff, or_iff_right MeetsOutside.not_anything]
  | anyBelow _ ih =>
    rw [ih, List.exists_mem_cons_iff, List.exists_mem_cons_iff, MeetsOutside.anyBelow_iff]
  | anyAbove _ ih =>
    rw [ih, List.exists_mem_cons_iff, List.exists_mem_cons_iff, MeetsOutside.anyAbove_iff]
  | array _ ih =>
    rw [ih, List.exists_mem_cons_iff, List.exists_mem_cons_iff, MeetsOutside.array_iff]
  | var inScope _ ih =>
    rw [ih, List.exists_mem_cons_iff, or_iff_right (MeetsOutside.not_var inScope)]
  | builtin _ known arguments _ ihArguments ih =>
    rw [arguments.after_eq] at ih
    rw [List.mem_append, ihArguments, ih, List.exists_mem_cons_iff, MeetsOutside.builtin_iff known]
  | hidden _ foreign excluded _ _ ih =>
    rw [ih, List.exists_mem_cons_iff, or_iff_right (MeetsOutside.not_hidden foreign excluded)]
  | applied foreign admitted given _ arguments _ ihArguments ih =>
    rw [arguments.after_eq] at ih
    rw [List.cons_append, List.mem_cons, List.mem_append, ihArguments, ih,
      List.exists_mem_cons_iff, MeetsOutside.applied_iff given foreign admitted, or_assoc]
  | @raw busy _ _ _ _ _ name type _ _ _ free foreign admitted idle bounds _ ihBounds ih =>
    rw [bounds.after_eq, List.erase_cons_head] at ih
    -- The bounds are read with the type in the set, which is no less than they meet without it.
    have inside : (∃ bound ∈ boundsIn (view.varsIn name type.generics) type.generics,
          view.MeetsOutside (name :: busy) bound met) ↔
        ∃ bound ∈ boundsIn (view.varsIn name type.generics) type.generics,
          view.MeetsOutside busy bound met := by
      constructor
      · rintro ⟨bound, member, meets⟩
        exact ⟨bound, member, meets.mono⟩
      · rintro ⟨bound, member, meets⟩
        exact (meets.avoid admitted).elim (fun avoids => ⟨bound, member, avoids⟩) id
    rw [List.cons_append, List.mem_cons, List.mem_append, ihBounds, inside, ih,
      List.exists_mem_cons_iff, MeetsOutside.raw_iff free foreign admitted,
      and_iff_right idle, or_assoc]
  | again free foreign admitted entered _ ih =>
    rw [List.mem_cons, ih, List.exists_mem_cons_iff, MeetsOutside.raw_iff free foreign admitted]
    simp [entered]

theorem exists_resolves_members {scope : List String} {members : List HostMember}
    {readings : List (Member × List String)}
    (each : List.Forall₂ (fun member reading => view.ReadsMember scope member reading.1 reading.2)
      members readings) :
    ∃ types, view.Resolves [] (members.flatMap (·.placed scope)) types (readings.flatMap (·.2))
      [] := by
  induction each with
  | nil => exact ⟨[], .nil⟩
  | cons first _ ih =>
    obtain ⟨types, -, resolves⟩ := first.resolves
    obtain ⟨others, rest⟩ := ih
    exact ⟨types ++ others, resolves.append rest⟩

/-- All signatures of a host type are read in one run. -/
theorem ReadsNode.resolves {type : HostType} {node : Node} {mentioned : List String}
    {parts : Parts} (reads : view.ReadsNode type node mentioned parts) :
    ∃ types, view.Resolves [] (view.placed type) types parts.met [] := by
  obtain ⟨types, inside⟩ := exists_resolves_members reads.members
  exact ⟨_, (reads.bounds.append reads.supertypes).append inside⟩

/-- A type of the model mentions another type: in one of its signatures, as a type inside it or
around it, or as a variant. -/
inductive Leads (view : HostView) (name : String) : String → Prop
  | signature {type : HostType} {placed : Placed} {other : String}
      (found : view.model.get? name = some type) (member : placed ∈ view.placed type)
      (meets : view.Meets placed other) : Leads view name other
  | nested {type inner : HostType} (found : view.model.get? name = some type)
      (declared : inner ∈ type.nested) (visible : inner.visibility.isApi = true)
      (allowed : view.allow.contains inner.name = true) : Leads view name inner.name
  | outer {type : HostType} {other : String} (found : view.model.get? name = some type)
      (around : Name.outer? name = some other) (known : view.model.contains other = true) :
      Leads view name other
  | variant {type : HostType} {other : String} (found : view.model.get? name = some type)
      (listed : other ∈ type.variants) (admits : view.Admits other) : Leads view name other

/-- Reading a type of the model mentions exactly the types that it leads to. -/
theorem mem_mentioned_iff {name other : String} {type : HostType} {node : Node}
    {mentioned : List String} (found : view.model.get? name = some type)
    (reading : view.node type = Reading.result node mentioned) :
    other ∈ mentioned ↔ view.Leads name other := by
  obtain ⟨parts, reads⟩ := view.node_reading type node mentioned reading
  obtain ⟨types, resolves⟩ := reads.resolves
  obtain ⟨-, rfl⟩ := HostModel.get?_eq_some_iff.1 found
  rw [reads.mentions, beside, List.mem_append, List.mem_append, List.mem_append,
    resolves.mem_mentioned_iff]
  constructor
  · rintro (⟨placed, member, meets⟩ | (inside | around) | variant)
    · exact .signature found member meets
    · obtain ⟨inner, member, rfl⟩ := List.mem_map.1 inside
      obtain ⟨declared, allowed⟩ := List.mem_filter.1 member
      rw [Bool.and_eq_true] at allowed
      exact .nested found declared allowed.1 allowed.2
    · rw [Option.mem_toList, Option.filter_eq_some_iff] at around
      exact .outer found around.1 around.2
    · obtain ⟨listed, admits⟩ := List.mem_filter.1 variant
      exact .variant found listed (isSome_admitted?_iff.1 admits)
  · intro leads
    cases leads with
    | signature found' member meets =>
      obtain rfl := Option.some.inj (found.symm.trans found')
      exact Or.inl ⟨_, member, meets⟩
    | nested found' declared visible allowed =>
      obtain rfl := Option.some.inj (found.symm.trans found')
      refine Or.inr (Or.inl (Or.inl (List.mem_map.2 ⟨_, List.mem_filter.2 ⟨declared, ?_⟩, rfl⟩)))
      rw [visible, allowed, Bool.and_self]
    | outer _ around known =>
      refine Or.inr (Or.inl (Or.inr ?_))
      rw [Option.mem_toList, Option.filter_eq_some_iff]
      exact ⟨around, known⟩
    | variant found' listed admits =>
      obtain rfl := Option.some.inj (found.symm.trans found')
      exact Or.inr (Or.inr (List.mem_filter.2 ⟨listed, isSome_admitted?_iff.2 admits⟩))

end HostView

end TypeBridge
