import Mathlib.Data.List.Basic
import TypeBridge.Proofs.InheritedMembers

/-!
# What inherited members mention

When the types mentioned by the nodes of a graph stay within some names, so do the types of all
members that a node inherits, also after the parameters of supertypes are replaced by arguments.
-/

namespace TypeBridge

namespace ResolvedType

variable {allowed : String → Prop}

/-- A type mentions allowed names only. -/
def Within (allowed : String → Prop) (type : ResolvedType) : Prop :=
  ∀ name ∈ type.names, allowed name

theorem within_named_iff {name : String} {args : List ResolvedType} :
    (named name args).Within allowed ↔ allowed name ∧ ∀ arg ∈ args, arg.Within allowed := by
  simp only [Within, names, List.forall_mem_cons, mem_namesOfAll_iff]
  exact and_congr_right fun _ =>
    ⟨fun all arg member name mention => all name ⟨arg, member, mention⟩,
      fun all name ⟨arg, member, mention⟩ => all arg member name mention⟩

end ResolvedType

/-- The types that variables are replaced by mention allowed names only. -/
def BindsWithin (allowed : String → Prop) (bindings : Bindings) : Prop :=
  ∀ pair ∈ bindings, pair.2.Within allowed

namespace ResolvedType

variable {allowed : String → Prop} {bindings : Bindings}

mutual

/-- Replacing variables by types within some names stays within them. -/
theorem within_substitute (bound : BindsWithin allowed bindings) :
    ∀ type : ResolvedType, type.Within allowed → (type.substitute bindings).Within allowed
  | var name, within => by
    rw [ResolvedType.substitute]
    cases found : bindings.lookup name with
    | none => exact within
    | some type =>
      obtain ⟨front, back, rfl, -⟩ := List.lookup_eq_some_iff.1 found
      exact bound (name, type) (by simp)
  | named name args, within => by
    rw [ResolvedType.substitute, within_named_iff]
    obtain ⟨head, rest⟩ := within_named_iff.1 within
    exact ⟨head, within_substituteAll bound args rest⟩
  | array element, within | set element, within | optional element, within =>
    within_substitute bound element within
  | map key value, within => by
    intro name member
    rcases List.mem_append.1 member with left | right
    · refine within_substitute bound key ?_ name left
      exact fun other mention => within other (List.mem_append_left _ mention)
    · refine within_substitute bound value ?_ name right
      exact fun other mention => within other (List.mem_append_right _ mention)
  | anyBelow inner, within | anyAbove inner, within => within_substitute bound inner within
  | primitive _, within | anything, within | unknown, within => within

theorem within_substituteAll (bound : BindsWithin allowed bindings) :
    ∀ types : List ResolvedType, (∀ type ∈ types, type.Within allowed) →
      ∀ type ∈ substituteAll bindings types, type.Within allowed
  | [], _ => by simp [substituteAll]
  | type :: rest, within => by
    rw [substituteAll, List.forall_mem_cons]
    exact ⟨within_substitute bound type (within type List.mem_cons_self),
      within_substituteAll bound rest fun other later =>
        within other (List.mem_cons_of_mem _ later)⟩

end

end ResolvedType

variable {allowed : String → Prop} {bindings : Bindings}

/-- A member mentions allowed names only. -/
def Member.Within (allowed : String → Prop) (member : Member) : Prop :=
  ∀ type ∈ member.types, type.Within allowed

theorem Member.within_substitute (bound : BindsWithin allowed bindings) {member : Member}
    (within : member.Within allowed) : (member.substitute bindings).Within allowed := by
  have visible : BindsWithin allowed (member.visible bindings) :=
    fun pair kept => bound pair (member.visible_subset bindings pair kept)
  intro type listed
  rw [Member.types_substitute] at listed
  obtain ⟨original, known, rfl⟩ := List.mem_map.1 listed
  exact ResolvedType.within_substitute visible original (within original known)

theorem Node.bindsWithin_bind (node : Node) {args : List ResolvedType}
    (within : ∀ arg ∈ args, arg.Within allowed) : BindsWithin allowed (node.bind args) := by
  intro pair member
  rw [Node.bind, List.mem_reverse] at member
  exact within pair.2 (List.of_mem_zip member).2

namespace TypeGraph

/-- The nodes with allowed names mention allowed names only. -/
def ClosedUnder (graph : TypeGraph) (allowed : String → Prop) : Prop :=
  ∀ node ∈ graph.nodes, allowed node.name →
    (∀ type ∈ node.types, type.Within allowed) ∧ ∀ variant ∈ node.variants, allowed variant

/-- A node with an allowed name, and bindings of its parameters within allowed names. -/
def IsAllowed (graph : TypeGraph) (allowed : String → Prop) (entry : Node × Bindings) : Prop :=
  entry.1 ∈ graph.nodes ∧ allowed entry.1.name ∧ BindsWithin allowed entry.2

variable {graph : TypeGraph}

theorem isAllowed_of_mem {node : Node} (known : node ∈ graph.nodes) (named : allowed node.name) :
    graph.IsAllowed allowed (node, []) :=
  ⟨known, named, by simp [BindsWithin]⟩

variable (closed : graph.ClosedUnder allowed)
include closed

theorem ClosedUnder.parents {entry : Node × Bindings} (isAllowed : graph.IsAllowed allowed entry) :
    ∀ parent ∈ graph.parents entry.1 entry.2, graph.IsAllowed allowed parent := by
  obtain ⟨known, named, bound⟩ := isAllowed
  intro parent member
  obtain ⟨args, inherits, parentKnown, bindings⟩ := exists_of_mem_parents member
  have within : (ResolvedType.named parent.1.name args).Within allowed := by
    apply (closed entry.1 known named).1
    exact List.mem_append_left _ (List.mem_append_left _ inherits)
  obtain ⟨head, rest⟩ := ResolvedType.within_named_iff.1 within
  refine ⟨parentKnown, head, bindings ▸ Node.bindsWithin_bind _ fun arg applied => ?_⟩
  obtain ⟨original, listed, rfl⟩ := List.mem_map.1 applied
  exact ResolvedType.within_substitute bound original (rest original listed)

theorem ClosedUnder.members {node : Node} (known : node ∈ graph.nodes)
    (named : allowed node.name) : ∀ member ∈ node.members, member.Within allowed := by
  intro member own type listed
  apply (closed node known named).1 type
  exact List.mem_append_right _ (List.mem_flatMap.2 ⟨member, own, listed⟩)

/-- The members met on the way up from a type with an allowed name stay within allowed names. -/
theorem ClosedUnder.climb : graph.Climb (graph.IsAllowed allowed) (Member.Within allowed) where
  parents _ := closed.parents
  members _ isAllowed member listed :=
    Member.within_substitute isAllowed.2.2
      (closed.members isAllowed.1 isAllowed.2.1 member listed)

end TypeGraph

end TypeBridge
