import TypeBridge.Graph.MemberSet

/-!
# What inherited members have in common

Members are gathered on the way up along supertypes, and the parameters of each supertype are
replaced by its arguments there.  So a promise that the members of every type on the way keep after
that replacement is kept by all members that a type ends up with.
-/

namespace TypeBridge

namespace Member

/-- The bindings that reach into a member: the type parameters of a method hide others. -/
def visible (member : Member) (bindings : Bindings) : Bindings :=
  match member.kind with
  | .field => bindings
  | .method _ generics => bindings.filter fun (name, _) => !generics.any (·.name == name)

theorem visible_subset (member : Member) (bindings : Bindings) :
    ∀ pair ∈ member.visible bindings, pair ∈ bindings := by
  unfold visible
  split
  · exact fun _ => id
  · exact fun pair kept => (List.mem_filter.1 kept).1

/-- Replacing variables in a member replaces the visible ones in each of its types. -/
theorem types_substitute (member : Member) (bindings : Bindings) :
    (member.substitute bindings).types =
      member.types.map (·.substitute (member.visible bindings)) := by
  obtain ⟨name, kind, type, nullable, optional, doc⟩ := member
  cases kind with
  | field => rfl
  | method parameters generics =>
    simp [substitute, types, visible, List.filterMap_map, List.map_filterMap, Function.comp_def]

theorem substitute_nil (member : Member) : member.substitute [] = member := by
  obtain ⟨name, kind, type, nullable, optional, doc⟩ := member
  cases kind with
  | field => simp [substitute, ResolvedType.substitute_nil]
  | method parameters generics => simp [substitute, ResolvedType.substitute_nil]

end Member

namespace MemberSet

variable {promise : Member → Prop} {set inherited : MemberSet}

/-- A promise that every member of a set keeps. -/
def Each (promise : Member → Prop) (set : MemberSet) : Prop :=
  ∀ contribution ∈ set.contributions, promise contribution.member

theorem each_empty : empty.Each promise := by
  simp [Each, empty]

theorem Each.of_mem {member : Member} (each : set.Each promise) (listed : member ∈ set.members) :
    promise member := by
  obtain ⟨contribution, known, rfl⟩ := List.mem_map.1 listed
  exact each contribution known

theorem Each.imp {further : Member → Prop} (each : set.Each promise)
    (more : ∀ member, promise member → further member) : set.Each further :=
  fun contribution known => more contribution.member (each contribution known)

theorem Each.keep {new : Contribution} (each : set.Each promise) (kept : promise new.member) :
    (set.keep new).Each promise := by
  unfold MemberSet.keep
  split
  · intro contribution member
    rcases List.mem_append.1 member with old | last
    · exact each contribution old
    · rwa [List.mem_singleton.1 last]
  · split <;> exact each

theorem Each.foldl_keep {contributions : List Contribution} (each : set.Each promise)
    (others : ∀ contribution ∈ contributions, promise contribution.member) :
    (contributions.foldl MemberSet.keep set).Each promise := by
  induction contributions generalizing set with
  | nil => exact each
  | cons first rest ih =>
    rw [List.forall_mem_cons] at others
    exact ih (each.keep others.1) others.2

theorem Each.absorb (each : set.Each promise) (others : inherited.Each promise) :
    (set.absorb inherited).Each promise :=
  Each.foldl_keep each others

theorem mem_place {new contribution : Contribution} {contributions : List Contribution}
    (member : contribution ∈ place new contributions) :
    contribution = new ∨ contribution ∈ contributions := by
  induction contributions with
  | nil => exact Or.inl (List.mem_singleton.1 member)
  | cons old rest ih =>
    unfold place at member
    split at member
    · exact (List.mem_cons.1 member).imp_right (List.mem_cons_of_mem _)
    · rcases List.mem_cons.1 member with rfl | later
      · exact Or.inr List.mem_cons_self
      · exact (ih later).imp_right (List.mem_cons_of_mem _)

theorem Each.override {origin : String} {members : List Member} (each : set.Each promise)
    (own : ∀ member ∈ members, promise member) : (set.override origin members).Each promise := by
  unfold MemberSet.override
  obtain ⟨contributions, conflicts⟩ := set
  simp only [Each] at each ⊢
  induction members generalizing contributions with
  | nil => exact each
  | cons first rest ih =>
    rw [List.forall_mem_cons] at own
    apply ih own.2 _
    intro contribution member
    rcases mem_place member with rfl | old
    · exact own.1
    · exact each contribution old

end MemberSet

namespace TypeGraph

/-- A parent of a node is applied by a supertype of that node. -/
theorem exists_of_mem_parents {graph : TypeGraph} {node : Node} {bindings : Bindings}
    {parent : Node × Bindings} (member : parent ∈ graph.parents node bindings) :
    ∃ args, .named parent.1.name args ∈ node.supertypes ∧ parent.1 ∈ graph.nodes ∧
      parent.2 = parent.1.bind (args.map (·.substitute bindings)) := by
  obtain ⟨super, inherits, result⟩ := List.mem_filterMap.1 member
  split at result
  · next name args =>
    obtain ⟨above, found, rfl⟩ := Option.map_eq_some_iff.1 result
    obtain ⟨known, rfl⟩ := get?_eq_some_iff.1 found
    exact ⟨args, inherits, known, rfl⟩
  · cases result

/-- The way up from a type: `onWay` holds of nodes together with the types that their parameters
stand for, and passes to supertypes; members met on the way keep a promise. -/
structure Climb (graph : TypeGraph) (onWay : Node × Bindings → Prop) (promise : Member → Prop) :
    Prop where
  parents : ∀ entry, onWay entry → ∀ parent ∈ graph.parents entry.1 entry.2, onWay parent
  members : ∀ entry, onWay entry → ∀ member ∈ entry.1.members,
    promise (member.substitute entry.2)

variable {graph : TypeGraph} {onWay : Node × Bindings → Prop} {promise : Member → Prop}
  (climb : graph.Climb onWay promise)
include climb

theorem Climb.own {node : Node} (start : onWay (node, [])) :
    ∀ member ∈ node.members, promise member := by
  intro member listed
  have kept := climb.members (node, []) start member listed
  rwa [Member.substitute_nil] at kept

/-- What types on the way contribute keeps the promise. -/
theorem Climb.inherit {available : List String} {entries : List (Node × Bindings)}
    {set : MemberSet} (met : ∀ entry ∈ entries, onWay entry) (each : set.Each promise) :
    (graph.inherit available entries set).Each promise := by
  induction available, entries, set using TypeGraph.inherit.induct graph with
  | case1 available set =>
    rwa [TypeGraph.inherit]
  | case2 available parent bindings rest set entered above whole ihAbove ih =>
    rw [List.forall_mem_cons] at met
    obtain ⟨first, others⟩ := met
    have wholeEq : whole =
        above.override parent.name (parent.members.map (·.substitute bindings)) := by
      simp [whole]
    rw [wholeEq] at ih
    rw [TypeGraph.inherit, dif_pos entered]
    refine ih others (each.absorb (MemberSet.Each.override ?_ ?_))
    · exact ihAbove (climb.parents (parent, bindings) first) MemberSet.each_empty
    · intro member listed
      obtain ⟨own, known, rfl⟩ := List.mem_map.1 listed
      exact climb.members (parent, bindings) first own known
  | case3 available parent bindings rest set notEntered ih =>
    rw [List.forall_mem_cons] at met
    rw [TypeGraph.inherit, dif_neg notEntered]
    exact ih met.2 each

/-- Every member of a type keeps the promise, inherited ones included. -/
theorem Climb.allMembers {node : Node} (start : onWay (node, [])) :
    (graph.allMembers node).Each promise := by
  refine MemberSet.Each.override ?_ (climb.own start)
  exact climb.inherit (climb.parents (node, []) start) MemberSet.each_empty

theorem Climb.variantMembers {node : Node} (start : onWay (node, [])) :
    (graph.variantMembers node).Each promise := by
  refine MemberSet.Each.override (climb.inherit ?_ MemberSet.each_empty) (climb.own start)
  intro entry kept
  exact climb.parents (node, []) start entry (List.mem_filter.1 kept).1

end TypeGraph

end TypeBridge
