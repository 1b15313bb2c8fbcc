import Mathlib.Data.Fintype.Card
import Mathlib.Data.List.Nodup
import Mathlib.Data.Set.Finite.Basic
import Mathlib.Logic.Function.Iterate
import Mathlib.Logic.Relation
import Mathlib.Order.WellFounded
import TypeBridge.Graph.EmissionOrder

/-!
# Supertypes are placed first

Where the supertype relation has no cycle, some waiting member of a component is always ready, so
the placement never falls back on the first one, and every member stands behind its supertypes.
-/

namespace TypeBridge.TypeGraph

open Relation

/-- Some member of a list has no successor in it, unless the relation has a cycle. -/
theorem exists_minimal_of_acyclic {α : Type} {r : α → α → Prop} (acyclic : ∀ v, ¬TransGen r v v)
    {members : List α} (nonempty : members ≠ []) :
    ∃ v ∈ members, ∀ w ∈ members, ¬r v w := by
  classical
  have finite : Finite { v // v ∈ members } := (List.finite_toSet members).to_subtype
  let Below (b a : { v // v ∈ members }) : Prop := TransGen r a.1 b.1
  have transitive : IsTrans _ Below := ⟨fun a b c first second => second.trans first⟩
  have irreflexive : Std.Irrefl Below := ⟨fun a => acyclic a.1⟩
  have founded : WellFounded Below := Finite.wellFounded_of_trans_of_irrefl Below
  obtain ⟨v, member⟩ := List.exists_mem_of_ne_nil _ nonempty
  obtain ⟨least, -, minimal⟩ := founded.has_min Set.univ ⟨⟨v, member⟩, trivial⟩
  exact ⟨least.1, least.2, fun w inside edge => minimal ⟨w, inside⟩ trivial (.single edge)⟩

/-- Of two members of a list, one stands behind the other. -/
theorem pair_sublist_or {α : Type} {l : List α} {a b : α} (left : a ∈ l) (right : b ∈ l)
    (differs : a ≠ b) : [a, b].Sublist l ∨ [b, a].Sublist l := by
  obtain ⟨front, back, rfl⟩ := List.append_of_mem left
  rcases List.mem_append.1 right with before | others
  · refine Or.inr ((List.singleton_sublist.2 before).append ?_)
    exact List.singleton_sublist.2 List.mem_cons_self
  · have after : b ∈ back := (List.mem_cons.1 others).resolve_left (Ne.symm differs)
    refine Or.inl (List.sublist_append_of_sublist_right ?_)
    exact (List.singleton_sublist.2 after).cons_cons a

namespace Placement

variable {supers : Nat → List Nat} {component : List Nat}

theorem isReady_iff {placed : List Nat} {member : Nat} :
    isReady supers component placed member = true ↔
      ∀ super ∈ supers member, super ∈ component → super ∈ placed := by
  simp only [isReady, List.all_eq_true, Bool.or_eq_true, Bool.not_eq_true', List.contains_iff_mem]
  apply forall₂_congr
  intro super _
  rw [← Bool.not_eq_true, List.contains_iff_mem, imp_iff_not_or]

/-- What holds at any time of a placement of members whose supertypes form no cycle. -/
structure Sound (supers : Nat → List Nat) (component : List Nat) (placement : Placement) :
    Prop where
  perm : (placement.placed ++ placement.waiting).Perm component
  closed : ∀ member ∈ placement.placed, ∀ super ∈ supers member, super ∈ component →
    super ∈ placement.placed
  ordered : placement.placed.Pairwise fun earlier later => later ∉ supers earlier

theorem sound_start : Sound supers component ⟨[], component⟩ where
  perm := .refl _
  closed := by simp
  ordered := .nil

/-- As long as members wait, one of them is ready. -/
theorem Sound.exists_ready {placement : Placement} (sound : Sound supers component placement)
    (acyclic : ∀ v, ¬TransGen (fun a b => b ∈ supers a) v v) (more : placement.waiting ≠ []) :
    ∃ member ∈ placement.waiting,
      isReady supers component placement.placed member = true := by
  obtain ⟨member, waiting, minimal⟩ := exists_minimal_of_acyclic acyclic more
  refine ⟨member, waiting, isReady_iff.2 fun super edge inside => ?_⟩
  have somewhere := sound.perm.mem_iff.2 inside
  exact (List.mem_append.1 somewhere).resolve_right fun late => minimal super late edge

/-- A step places the first member that is ready. -/
theorem Sound.step_eq {placement : Placement} (sound : Sound supers component placement)
    (acyclic : ∀ v, ¬TransGen (fun a b => b ∈ supers a) v v) (more : placement.waiting ≠ []) :
    ∃ member, placement.waiting.find? (isReady supers component placement.placed) = some member ∧
      placement.step supers component =
        ⟨placement.placed ++ [member], placement.waiting.erase member⟩ := by
  obtain ⟨candidate, waiting, ready⟩ := sound.exists_ready acyclic more
  have some : (placement.waiting.find?
      (isReady supers component placement.placed)).isSome = true :=
    List.find?_isSome.2 ⟨candidate, waiting, ready⟩
  obtain ⟨member, found⟩ := Option.isSome_iff_exists.1 some
  refine ⟨member, found, ?_⟩
  unfold step
  split
  · next none => exact absurd none more
  · next first rest waitingEq =>
    rw [← waitingEq, found]
    rfl

/-- Every step keeps a placement sound. -/
theorem Sound.step {placement : Placement} (sound : Sound supers component placement)
    (distinct : component.Nodup) (acyclic : ∀ v, ¬TransGen (fun a b => b ∈ supers a) v v) :
    Sound supers component (placement.step supers component) := by
  by_cases more : placement.waiting = []
  · unfold Placement.step
    rwa [more]
  obtain ⟨member, found, stepEq⟩ := sound.step_eq acyclic more
  have waiting : member ∈ placement.waiting := List.mem_of_find?_eq_some found
  have ready : isReady supers component placement.placed member = true := List.find?_some found
  rw [stepEq]
  have inside : member ∈ component := sound.perm.mem_iff.1 (List.mem_append_right _ waiting)
  have unplaced : member ∉ placement.placed := by
    intro placed
    have apart := (List.nodup_append.1 (sound.perm.nodup_iff.2 distinct)).2.2
    exact apart member placed member waiting rfl
  refine ⟨?_, ?_, ?_⟩
  · refine List.Perm.trans ?_ sound.perm
    rw [List.append_assoc]
    exact (List.perm_cons_erase waiting).symm.append_left _
  · intro other placed super edge known
    apply List.mem_append_left
    rcases List.mem_append.1 placed with old | last
    · exact sound.closed other old super edge known
    · rw [List.mem_singleton.1 last] at edge
      exact isReady_iff.1 ready super edge known
  · refine List.pairwise_append.2 ⟨sound.ordered, List.pairwise_singleton _ _, ?_⟩
    intro earlier old later last edge
    rw [List.mem_singleton.1 last] at edge
    exact unplaced (sound.closed earlier old member edge inside)

theorem sound_iterate (distinct : component.Nodup)
    (acyclic : ∀ v, ¬TransGen (fun a b => b ∈ supers a) v v) (n : Nat) :
    Sound supers component ((step supers component)^[n] ⟨[], component⟩) := by
  induction n with
  | zero => exact sound_start
  | succ n ih =>
    rw [Function.iterate_succ_apply']
    exact ih.step distinct acyclic

/-- A placement ends after some steps with no member waiting. -/
theorem exists_iterate_eq_finish (supers : Nat → List Nat) (component : List Nat)
    (placement : Placement) :
    ∃ n, (step supers component)^[n] placement = placement.finish supers component ∧
      (placement.finish supers component).waiting = [] := by
  induction placement using finish.induct supers component with
  | case1 placement none =>
    refine ⟨0, ?_⟩
    rw [finish]
    split
    · exact ⟨rfl, none⟩
    · next more => simp [none] at more
  | case2 placement first rest more ih =>
    obtain ⟨n, same, none⟩ := ih
    refine ⟨n + 1, ?_⟩
    rw [finish]
    split
    · next empty => simp [empty] at more
    · exact ⟨same, none⟩

end Placement

variable {supers : Nat → List Nat} {component : List Nat}

/-- A component is placed whole, and every member behind its supertypes. -/
theorem perm_supertypesFirst (distinct : component.Nodup)
    (acyclic : ∀ v, ¬TransGen (fun a b => b ∈ supers a) v v) :
    (supertypesFirst supers component).Perm component ∧
      ∀ member ∈ component, ∀ super ∈ supers member, super ∈ component →
        [super, member].Sublist (supertypesFirst supers component) := by
  obtain ⟨n, same, none⟩ :=
    Placement.exists_iterate_eq_finish supers component ⟨[], component⟩
  have sound := Placement.sound_iterate distinct acyclic n
  rw [same] at sound
  have perm := sound.perm
  rw [none, List.append_nil] at perm
  refine ⟨perm, fun member inside super edge known => ?_⟩
  have differs : super ≠ member := fun same => acyclic member (.single (same ▸ edge))
  apply (pair_sublist_or (perm.mem_iff.2 known) (perm.mem_iff.2 inside) differs).resolve_right
  exact fun reversed => List.pairwise_iff_forall_sublist.1 sound.ordered reversed edge

end TypeBridge.TypeGraph
