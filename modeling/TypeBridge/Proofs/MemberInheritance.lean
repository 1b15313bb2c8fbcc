import TypeBridge.Proofs.ShownSignatures
import TypeBridge.Proofs.SupertypePlacement
import TypeBridge.Proofs.WalkReachability

/-!
# Which members a type ends up with

The members of a type have the keys that the type itself and the types it inherits from declare.  On
the way up no type is entered twice, and that loses nothing: a chain of supertypes that comes back
to a type can be cut short.  Where the supertype relation has no cycle, the guard against entering a
type twice never applies, so a member that a type does not declare is the one of its first supertype
that has the key.
-/

namespace TypeBridge

open Relation

theorem Member.key_substitute (bindings : Bindings) (member : Member) :
    (member.substitute bindings).key = member.key := by
  obtain ⟨name, kind, type, nullable, optional, doc⟩ := member
  cases kind with
  | field => rfl
  | method parameters generics => simp [substitute, key]

theorem Node.isSome_lastOf?_iff {node : Node} {key : String} :
    (node.lastOf? key).isSome = true ↔ key ∈ node.members.map (·.key) := by
  simp [lastOf?]

namespace MemberSet

theorem isSome_find?_iff {set : MemberSet} {key : String} :
    (set.find? key).isSome = true ↔ key ∈ set.members.map (·.key) := by
  simp [find?, members]

theorem find?_keep (set : MemberSet) (new : Contribution) (key : String) :
    (set.keep new).find? key =
      (set.find? key).or (if new.member.key = key then some new else none) := by
  unfold keep
  split
  · simp only [find?, List.find?_append]
    by_cases same : new.member.key = key <;> simp [same]
  · next old found =>
    -- a key that is taken already finds what it found before
    have taken : (set.find? key).or (if new.member.key = key then some new else none) =
        set.find? key := by
      by_cases same : new.member.key = key
      · rw [← same, found]
        rfl
      · rw [if_neg same, Option.or_none]
    rw [taken]
    split <;> rfl

/-- What a key finds in a set stays, and else the key finds what is absorbed. -/
theorem find?_absorb (set inherited : MemberSet) (key : String) :
    (set.absorb inherited).find? key = (set.find? key).or (inherited.find? key) := by
  have through (contributions : List Contribution) : ∀ set : MemberSet,
      (contributions.foldl keep set).find? key =
        (set.find? key).or (contributions.find? (·.member.key == key)) := by
    induction contributions with
    | nil => exact fun set => Option.or_none.symm
    | cons first rest ih =>
      intro set
      rw [List.foldl_cons, ih, find?_keep, Option.or_assoc, List.find?_cons]
      by_cases same : first.member.key = key
      · simp [same]
      · rw [if_neg same, beq_eq_false_iff_ne.2 same, Option.none_or]
  exact through inherited.contributions _

end MemberSet

namespace TypeGraph

variable {graph : TypeGraph} {node : Node} {entry : Node × Bindings}
  {available other : List String} {key : String}

section Chains

/-- One step of a chain of supertypes through some types only. -/
def Enters (graph : TypeGraph) (available : List String) (sub super : String) : Prop :=
  graph.Extends sub super ∧ super ∈ available

/-- A chain that comes back to its start can be cut short there. -/
theorem leads_erase {start super : String}
    (leads : ReflTransGen (graph.Enters available) start super) :
    ReflTransGen (graph.Enters (available.erase start)) start super := by
  induction leads with
  | refl => exact .refl
  | @tail middle last _ step ih =>
    by_cases returns : last = start
    · rw [returns]
    · exact ih.tail ⟨step.1, (List.mem_erase_of_ne returns).2 step.2⟩

theorem leads_mono {start super : String} (more : ∀ name ∈ available, name ∈ other)
    (leads : ReflTransGen (graph.Enters available) start super) :
    ReflTransGen (graph.Enters other) start super :=
  ReflTransGen.mono (fun _ _ step => ⟨step.1, more _ step.2⟩) _ _ leads

theorem mem_names_of_inherits {sub super : String} (inherits : graph.Inherits sub super)
    (known : super ∈ graph.names) : sub ∈ graph.names := by
  rcases inherits.cases_head with rfl | ⟨middle, step, -⟩
  · exact known
  · obtain ⟨node, inGraph, rfl, -⟩ := extends_iff.1 step
    exact List.mem_map_of_mem inGraph

/-- Chains that end in the graph stay in it, and need not return to their start. -/
theorem leads_iff_inherits {sub super : String} (known : super ∈ graph.names) :
    ReflTransGen (graph.Enters (graph.names.erase sub)) sub super ↔ graph.Inherits sub super := by
  refine ⟨ReflTransGen.mono (fun _ _ step => step.1) _ _, fun inherits => leads_erase ?_⟩
  induction inherits using ReflTransGen.head_induction_on with
  | refl => exact .refl
  | head step rest ih => exact ih.head ⟨step, mem_names_of_inherits rest known⟩

theorem known_of_ascends {parent : Node × Bindings} (ascends : graph.Ascends entry parent) :
    parent.1 ∈ graph.nodes := by
  obtain ⟨-, -, known, -⟩ := exists_of_mem_parents ascends
  exact known

theorem extends_of_ascends {parent : Node × Bindings} (known : entry.1 ∈ graph.nodes)
    (ascends : graph.Ascends entry parent) : graph.Extends entry.1.name parent.1.name := by
  obtain ⟨args, applied, -, -⟩ := exists_of_mem_parents ascends
  exact extends_iff.2 ⟨entry.1, known, rfl, List.mem_filterMap.2 ⟨_, applied, rfl⟩⟩

theorem exists_ascends_of_extends {super : String} (known : entry.1 ∈ graph.nodes)
    (step : graph.Extends entry.1.name super) (inGraph : super ∈ graph.names) :
    ∃ parent, graph.Ascends entry parent ∧ parent.1.name = super := by
  obtain ⟨node, known', same, named⟩ := extends_iff.1 step
  obtain rfl : node = entry.1 := List.inj_on_of_nodup_map graph.distinct known' known same
  obtain ⟨type, applied, head⟩ := List.mem_filterMap.1 named
  cases type with
  | named name args =>
    cases head
    obtain ⟨parent, found, rfl⟩ := List.mem_map.1 inGraph
    refine ⟨(parent, parent.bind (args.map (·.substitute entry.2))),
      List.mem_filterMap.2 ⟨_, applied, ?_⟩, rfl⟩
    simp only [get?_eq_some_iff.2 ⟨found, rfl⟩, Option.map_some]
  | _ => cases head

end Chains

section Gathering

/-- What a type has where its parameters stand for some types: own members on top of those that it
inherits through available types. -/
def gather (graph : TypeGraph) (available : List String) (entry : Node × Bindings) : MemberSet :=
  (graph.inherit available (graph.parents entry.1 entry.2) .empty).override entry.1.name
    (entry.1.members.map (·.substitute entry.2))

/-- The own set of members of a type where its parameters stand for some types. -/
def appliedMembers (graph : TypeGraph) (entry : Node × Bindings) : MemberSet :=
  graph.gather (graph.names.erase entry.1.name) entry

theorem appliedMembers_nil (graph : TypeGraph) (node : Node) :
    graph.appliedMembers (node, []) = graph.allMembers node := by
  have own : node.members.map (·.substitute []) = node.members := by
    simp [Member.substitute_nil]
  rw [appliedMembers, gather, own]
  rfl

theorem inherit_cons (available : List String) (rest : List (Node × Bindings)) (set : MemberSet) :
    graph.inherit available (entry :: rest) set =
      graph.inherit available rest
        (if entry.1.name ∈ available then
          set.absorb (graph.gather (available.erase entry.1.name) entry) else set) := by
  obtain ⟨parent, bindings⟩ := entry
  rw [inherit]
  split <;> rfl

theorem distinct_gather (graph : TypeGraph) (available : List String) (entry : Node × Bindings) :
    (graph.gather available entry).Distinct :=
  ((distinct_inherit MemberSet.distinct_empty).override _ _).1

theorem distinct_appliedMembers (graph : TypeGraph) (entry : Node × Bindings) :
    (graph.appliedMembers entry).Distinct :=
  graph.distinct_gather _ entry

theorem find?_inherit (entries : List (Node × Bindings)) (set : MemberSet) :
    (graph.inherit available entries set).find? key =
      (set.find? key).or (entries.findSome? fun entry =>
        if entry.1.name ∈ available then
          (graph.gather (available.erase entry.1.name) entry).find? key else none) := by
  induction entries generalizing set with
  | nil => rw [inherit, List.findSome?_nil, Option.or_none]
  | cons first rest ih =>
    rw [inherit_cons, ih, List.findSome?_cons]
    by_cases entered : first.1.name ∈ available
    · rw [if_pos entered, if_pos entered, MemberSet.find?_absorb, Option.or_assoc]
      cases (graph.gather (available.erase first.1.name) first).find? key <;> rfl
    · rw [if_neg entered, if_neg entered]

/-- A set of members with the own sets of some types absorbed one by one. -/
def absorbAll (graph : TypeGraph) (set : MemberSet) (entries : List (Node × Bindings)) :
    MemberSet :=
  entries.foldl (fun set entry => set.absorb (graph.appliedMembers entry)) set

theorem absorbAll_cons (set : MemberSet) (rest : List (Node × Bindings)) :
    graph.absorbAll set (entry :: rest) =
      graph.absorbAll (set.absorb (graph.appliedMembers entry)) rest :=
  rfl

theorem find?_absorbAll (entries : List (Node × Bindings)) (set : MemberSet) :
    (graph.absorbAll set entries).find? key =
      (set.find? key).or (entries.findSome? fun entry =>
        (graph.appliedMembers entry).find? key) := by
  induction entries generalizing set with
  | nil => rw [absorbAll, List.foldl_nil, List.findSome?_nil, Option.or_none]
  | cons first rest ih =>
    rw [absorbAll_cons, ih, List.findSome?_cons, MemberSet.find?_absorb, Option.or_assoc]
    cases (graph.appliedMembers first).find? key <;> rfl

theorem distinct_absorbAll {set : MemberSet} (distinct : set.Distinct)
    (entries : List (Node × Bindings)) : (graph.absorbAll set entries).Distinct := by
  induction entries generalizing set with
  | nil => exact distinct
  | cons first rest ih => exact ih (distinct.absorb _)

/-- What a type contributes of its own under a key. -/
def ownContribution? (entry : Node × Bindings) (key : String) : Option Contribution :=
  (entry.1.lastOf? key).map fun member => ⟨member.substitute entry.2, entry.1.name⟩

theorem find?_override_own {set : MemberSet} (distinct : set.Distinct) :
    (set.override entry.1.name (entry.1.members.map (·.substitute entry.2))).find? key =
      (ownContribution? entry key).or (set.find? key) := by
  rw [(distinct.override _ _).2, ← List.map_reverse, List.find?_map, Option.map_map]
  simp only [Function.comp_def, Member.key_substitute]
  rfl

theorem find?_gather (available : List String) (entry : Node × Bindings) :
    (graph.gather available entry).find? key =
      (ownContribution? entry key).or ((graph.parents entry.1 entry.2).findSome? fun parent =>
        if parent.1.name ∈ available then
          (graph.gather (available.erase parent.1.name) parent).find? key else none) := by
  rw [gather, find?_override_own (distinct_inherit MemberSet.distinct_empty), find?_inherit]
  rfl

/-- A type has the last of its own members with a key. -/
theorem find?_appliedMembers_of_lastOf? {own : Member} (last : node.lastOf? key = some own) :
    (graph.appliedMembers (node, [])).find? key = some ⟨own, node.name⟩ := by
  rw [appliedMembers, find?_gather, ownContribution?, last, Option.map_some,
    Member.substitute_nil]
  rfl

/-- Some type that a type leads to, itself included, declares a member with a key. -/
def Has (graph : TypeGraph) (key : String) (entry : Node × Bindings) : Prop :=
  ∃ origin ∈ graph.nodes, graph.Inherits entry.1.name origin.name ∧
    key ∈ origin.members.map (·.key)

/-- A key finds a member exactly when a chain through available types leads to a type that declares
one. -/
theorem isSome_find?_gather_iff (known : entry.1 ∈ graph.nodes)
    (inside : ∀ name ∈ available, name ∈ graph.names) :
    ((graph.gather available entry).find? key).isSome = true ↔
      ∃ origin ∈ graph.nodes,
        ReflTransGen (graph.Enters available) entry.1.name origin.name ∧
          key ∈ origin.members.map (·.key) := by
  induction length : available.length using Nat.strong_induction_on
    generalizing available entry with
  | _ n ih =>
    rw [find?_gather, Option.isSome_or, Bool.or_eq_true, List.findSome?_isSome_iff,
      ownContribution?, Option.isSome_map, Node.isSome_lastOf?_iff]
    -- inside a supertype the chain must not come back to it
    have above (parent : Node × Bindings) (ascends : graph.Ascends entry parent)
        (entered : parent.1.name ∈ available) :=
      ih (available.erase parent.1.name).length (by
          rw [← length, List.length_erase_of_mem entered]
          have := List.length_pos_of_mem entered
          omega)
        (known_of_ascends ascends) (fun name kept => inside name (List.mem_of_mem_erase kept)) rfl
    constructor
    · rintro (own | ⟨parent, ascends, found⟩)
      · exact ⟨entry.1, known, .refl, own⟩
      · split at found
        · next entered =>
          obtain ⟨origin, inGraph, leads, declares⟩ := (above parent ascends entered).1 found
          refine ⟨origin, inGraph, .head ⟨extends_of_ascends known ascends, entered⟩ ?_, declares⟩
          exact leads_mono (fun _ => List.mem_of_mem_erase) leads
        · cases found
    · rintro ⟨origin, inGraph, leads, declares⟩
      rcases leads.cases_head with same | ⟨super, step, rest⟩
      · obtain rfl : entry.1 = origin :=
          List.inj_on_of_nodup_map graph.distinct known inGraph same
        exact .inl declares
      · obtain ⟨parent, ascends, rfl⟩ :=
          exists_ascends_of_extends known step.1 (inside super step.2)
        refine .inr ⟨parent, ascends, ?_⟩
        rw [if_pos step.2]
        exact (above parent ascends step.2).2 ⟨origin, inGraph, leads_erase rest, declares⟩

theorem isSome_find?_appliedMembers_iff (known : entry.1 ∈ graph.nodes) :
    ((graph.appliedMembers entry).find? key).isSome = true ↔ graph.Has key entry := by
  rw [appliedMembers, isSome_find?_gather_iff known fun name => List.mem_of_mem_erase]
  refine exists_congr fun origin => and_congr_right fun inGraph => and_congr_left fun _ => ?_
  exact leads_iff_inherits (List.mem_map_of_mem inGraph)

end Gathering

section Acyclic

/-- No chain of supertypes returns to its start. -/
def IsAcyclic (graph : TypeGraph) : Prop :=
  ∀ name, ¬ TransGen graph.Extends name name

/-- Supertypes of a lower rank form no cycle. -/
theorem isAcyclic_of_rank (rank : String → Nat)
    (falls : ∀ node ∈ graph.nodes, ∀ super ∈ node.supertypeNames, rank super < rank node.name) :
    graph.IsAcyclic := by
  have below : ∀ {sub super}, TransGen graph.Extends sub super → rank super < rank sub := by
    intro sub super chain
    induction chain with
    | single step =>
      obtain ⟨node, known, rfl, named⟩ := extends_iff.1 step
      exact falls node known _ named
    | tail _ step ih =>
      obtain ⟨node, known, rfl, named⟩ := extends_iff.1 step
      exact (falls node known _ named).trans ih
  exact fun name chain => lt_irrefl _ (below chain)

variable (acyclic : graph.IsAcyclic)
include acyclic

/-- What passes down from all supertypes of a type to the type holds of every type. -/
theorem IsAcyclic.induction {motive : Node × Bindings → Prop}
    (step : ∀ entry, entry.1 ∈ graph.nodes →
      (∀ parent, graph.Ascends entry parent → motive parent) → motive entry)
    (entry : Node × Bindings) (known : entry.1 ∈ graph.nodes) : motive entry := by
  classical
  by_contra fails
  -- of the types for which it fails, one has none of the others above it
  let failing := graph.names.filter fun name =>
    decide (∃ entry : Node × Bindings, entry.1 ∈ graph.nodes ∧ entry.1.name = name ∧ ¬ motive entry)
  have listed {entry : Node × Bindings} (known : entry.1 ∈ graph.nodes) (fails : ¬ motive entry) :
      entry.1.name ∈ failing :=
    List.mem_filter.2 ⟨List.mem_map_of_mem known, decide_eq_true ⟨entry, known, rfl, fails⟩⟩
  obtain ⟨name, member, minimal⟩ :=
    exists_minimal_of_acyclic acyclic (List.ne_nil_of_mem (listed known fails))
  obtain ⟨least, known', rfl, fails'⟩ := of_decide_eq_true (List.mem_filter.1 member).2
  refine fails' (step least known' fun parent ascends => ?_)
  by_contra failsAbove
  exact minimal _ (listed (known_of_ascends ascends) failsAbove)
    (extends_of_ascends known' ascends)

/-- Only the types above a type matter for what it gathers. -/
theorem IsAcyclic.gather_congr (entry : Node × Bindings) (known : entry.1 ∈ graph.nodes) :
    ∀ available other : List String,
      (∀ name, TransGen graph.Extends entry.1.name name → (name ∈ available ↔ name ∈ other)) →
        graph.gather available entry = graph.gather other entry := by
  refine acyclic.induction (motive := fun entry => ∀ available other : List String,
    (∀ name, TransGen graph.Extends entry.1.name name → (name ∈ available ↔ name ∈ other)) →
      graph.gather available entry = graph.gather other entry) ?_ entry known
  clear entry known
  intro entry known ih available other agree
  have same (entries : List (Node × Bindings))
      (met : ∀ parent ∈ entries, graph.Ascends entry parent) : ∀ set : MemberSet,
      graph.inherit available entries set = graph.inherit other entries set := by
    induction entries with
    | nil => exact fun set => by rw [inherit, inherit]
    | cons parent rest through =>
      intro set
      rw [List.forall_mem_cons] at met
      have step := extends_of_ascends known met.1
      have above : graph.gather (available.erase parent.1.name) parent =
          graph.gather (other.erase parent.1.name) parent := by
        refine ih parent met.1 _ _ fun name higher => ?_
        have differs : name ≠ parent.1.name := fun returns =>
          acyclic parent.1.name (returns ▸ higher)
        rw [List.mem_erase_of_ne differs, List.mem_erase_of_ne differs]
        exact agree name (.head step higher)
      simp only [inherit_cons, agree parent.1.name (.single step), above]
      exact through met.2 _
  rw [gather, gather, same _ fun _ => id]

/-- Without cycles a type absorbs the own sets of its supertypes one by one. -/
theorem IsAcyclic.appliedMembers_eq (known : entry.1 ∈ graph.nodes) :
    graph.appliedMembers entry =
      (graph.absorbAll .empty (graph.parents entry.1 entry.2)).override entry.1.name
        (entry.1.members.map (·.substitute entry.2)) := by
  have through (entries : List (Node × Bindings))
      (met : ∀ parent ∈ entries, graph.Ascends entry parent) : ∀ set : MemberSet,
      graph.inherit (graph.names.erase entry.1.name) entries set =
        graph.absorbAll set entries := by
    induction entries with
    | nil => exact fun set => by rw [inherit, absorbAll, List.foldl_nil]
    | cons parent rest ih =>
      intro set
      rw [List.forall_mem_cons] at met
      have step := extends_of_ascends known met.1
      have inGraph := known_of_ascends met.1
      have entered : parent.1.name ∈ graph.names.erase entry.1.name := by
        refine (List.mem_erase_of_ne fun returns => ?_).2 (List.mem_map_of_mem inGraph)
        rw [returns] at step
        exact acyclic _ (.single step)
      have own : graph.gather ((graph.names.erase entry.1.name).erase parent.1.name) parent =
          graph.appliedMembers parent := by
        refine acyclic.gather_congr parent inGraph _ _ fun name higher => ?_
        -- neither the type nor the supertype is above the supertype
        have notSelf : name ≠ parent.1.name := by
          rintro rfl
          exact acyclic _ higher
        have notBelow : name ≠ entry.1.name := by
          rintro rfl
          exact acyclic _ (.head step higher)
        rw [List.mem_erase_of_ne notSelf, List.mem_erase_of_ne notSelf,
          List.mem_erase_of_ne notBelow]
      rw [inherit_cons, if_pos entered, own, ih met.2, absorbAll_cons]
  rw [appliedMembers, gather, through _ fun _ => id]

/-- A member that a type does not declare is the one of its first supertype that has the key. -/
theorem IsAcyclic.find?_appliedMembers (known : entry.1 ∈ graph.nodes) :
    (graph.appliedMembers entry).find? key =
      (ownContribution? entry key).or ((graph.parents entry.1 entry.2).findSome? fun parent =>
        (graph.appliedMembers parent).find? key) := by
  rw [acyclic.appliedMembers_eq known,
    find?_override_own (distinct_absorbAll MemberSet.distinct_empty _), find?_absorbAll]
  rfl

end Acyclic

/-- The members of a type, in a graph with any cycles and diamonds: their keys are distinct, and
they are those that the type and the types it inherits from declare.  Where the type declares a key,
its last member with that key is the one; elsewhere, unless there are cycles, it is the member that
the first supertype has under the types it is applied to. -/
theorem allMembers_inherited_union (known : node ∈ graph.nodes) :
    (graph.allMembers node).Distinct ∧
      (∀ key, key ∈ (graph.allMembers node).members.map (·.key) ↔
        ∃ origin ∈ graph.nodes, graph.Inherits node.name origin.name ∧
          key ∈ origin.members.map (·.key)) ∧
      (∀ key own, node.lastOf? key = some own →
        (graph.allMembers node).find? key = some ⟨own, node.name⟩) ∧
      (graph.IsAcyclic → ∀ key, node.lastOf? key = none →
        (graph.allMembers node).find? key = (graph.parents node []).findSome? fun parent =>
          (graph.appliedMembers parent).find? key) := by
  rw [← appliedMembers_nil]
  refine ⟨graph.distinct_appliedMembers _, fun key => ?_,
    fun key own => find?_appliedMembers_of_lastOf?, fun acyclic key none => ?_⟩
  · rw [← MemberSet.isSome_find?_iff]
    exact isSome_find?_appliedMembers_iff known
  · rw [acyclic.find?_appliedMembers known, ownContribution?, none]
    rfl

/-- A field of some type. -/
def plainField (name : String) (type : ResolvedType) : Member :=
  ⟨name, .field, type, false, false, none⟩

/-- A type with a field of its type parameter. -/
def box : Node :=
  { bareNode "Box" [] [] with
    generics := [⟨"T", none, none⟩], members := [plainField "value" (.var "T")] }

/-- A type with a field of its own, below two types that inherit another field. -/
def doublyBoxed : Node :=
  { bareNode "Both" ["Texts", "Numbers"] [] with
    members := [plainField "count" (.primitive .number)] }

/-- A diamond, on the sides of which a type parameter stands for different types. -/
def boxDiamond : TypeGraph where
  nodes := [
    box,
    { bareNode "Texts" [] [] with supertypes := [.named "Box" [.primitive .string]] },
    { bareNode "Numbers" [] [] with supertypes := [.named "Box" [.primitive .number]] },
    doublyBoxed]
  distinct := by decide

theorem isAcyclic_boxDiamond : boxDiamond.IsAcyclic :=
  isAcyclic_of_rank boxDiamond.names.idxOf (by decide)

/-- The field comes from the first side of the diamond. -/
theorem boxDiamond_union :
    doublyBoxed ∈ boxDiamond.nodes ∧ boxDiamond.IsAcyclic ∧
      doublyBoxed.lastOf? "count" = some (plainField "count" (.primitive .number)) ∧
      doublyBoxed.lastOf? "value" = none ∧
      boxDiamond.Inherits "Both" "Box" ∧
      "value" ∈ (boxDiamond.allMembers doublyBoxed).members.map (·.key) ∧
      (boxDiamond.allMembers doublyBoxed).find? "count" =
        some ⟨plainField "count" (.primitive .number), "Both"⟩ ∧
      (boxDiamond.allMembers doublyBoxed).find? "value" =
        some ⟨plainField "value" (.primitive .string), "Box"⟩ := by
  have known : doublyBoxed ∈ boxDiamond.nodes := by decide
  have last : doublyBoxed.lastOf? "count" = some (plainField "count" (.primitive .number)) := by
    decide
  have none : doublyBoxed.lastOf? "value" = none := by decide
  have inherits : boxDiamond.Inherits "Both" "Box" := isAssignable_iff.1 (by cbv)
  obtain ⟨-, keys, own, inherited⟩ := allMembers_inherited_union known
  have found : (boxDiamond.parents doublyBoxed []).findSome? (fun parent =>
      (boxDiamond.appliedMembers parent).find? "value") =
        some ⟨plainField "value" (.primitive .string), "Box"⟩ := by
    cbv
  exact ⟨known, isAcyclic_boxDiamond, last, none, inherits,
    (keys "value").2 ⟨box, by decide, inherits, by decide⟩, own "count" _ last,
    (inherited isAcyclic_boxDiamond "value" none).trans found⟩

end TypeGraph

end TypeBridge
