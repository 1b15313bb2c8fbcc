import TypeBridge.Proofs.MemberInheritance

/-!
# Which member conflicts are reported

A conflict is reported wherever a supertype of a type on the way up brings a member that differs
from the one that the supertypes in front of it brought under the same key.  What becomes of the
kept one is left open: a type further down may declare the key itself, or have an earlier supertype
with the key, and then the report names a member that the type at the bottom does not have.
-/

namespace TypeBridge

open Relation

namespace MemberSet

variable {set inherited : MemberSet} {conflict : MemberConflict}

/-- A new contribution is dropped for a different one of a set. -/
def Drops (set : MemberSet) (conflict : MemberConflict) (new : Contribution) : Prop :=
  ∃ kept, set.find? new.member.key = some kept ∧ kept.member ≠ new.member ∧
    conflict = ⟨new.member.key, kept.origin, new.origin⟩

theorem mem_conflicts_keep_iff {new : Contribution} :
    conflict ∈ (set.keep new).conflicts ↔ conflict ∈ set.conflicts ∨ set.Drops conflict new := by
  unfold keep Drops
  split
  · next fresh => simp [fresh]
  · next old found =>
    split
    · next same => simp [found, same]
    · next differs => simp [found, differs]

theorem mem_conflicts_foldl_keep_iff {contributions : List Contribution}
    (distinct : (contributions.map (·.member.key)).Nodup) :
    conflict ∈ (contributions.foldl keep set).conflicts ↔
      conflict ∈ set.conflicts ∨ ∃ new ∈ contributions, set.Drops conflict new := by
  induction contributions generalizing set with
  | nil => simp
  | cons first rest ih =>
    rw [List.map_cons, List.nodup_cons] at distinct
    -- the first contribution does not matter for the others, which have other keys
    have others : ∀ new ∈ rest, (set.keep first).Drops conflict new ↔ set.Drops conflict new := by
      intro new later
      have otherKey : first.member.key ≠ new.member.key := fun same =>
        distinct.1 (same ▸ List.mem_map_of_mem later)
      rw [Drops, Drops, find?_keep, if_neg otherKey, Option.or_none]
    rw [List.foldl_cons, ih distinct.2, mem_conflicts_keep_iff, List.exists_mem_cons_iff, or_assoc]
    exact or_congr_right (or_congr_right (exists_congr fun new => and_congr_right (others new)))

/-- Two sets have different members under the key of a conflict, which names where the members come
from. -/
def Collides (set inherited : MemberSet) (conflict : MemberConflict) : Prop :=
  ∃ kept dropped, set.find? conflict.key = some kept ∧
    inherited.find? conflict.key = some dropped ∧ kept.member ≠ dropped.member ∧
      conflict.kept = kept.origin ∧ conflict.dropped = dropped.origin

theorem mem_conflicts_absorb_iff (distinct : inherited.Distinct) :
    conflict ∈ (set.absorb inherited).conflicts ↔
      conflict ∈ set.conflicts ∨ conflict ∈ inherited.conflicts ∨
        set.Collides inherited conflict := by
  have drops : (∃ new ∈ inherited.contributions, set.Drops conflict new) ↔
      set.Collides inherited conflict := by
    constructor
    · rintro ⟨new, listed, kept, found, differs, rfl⟩
      exact ⟨kept, new, found, (Search.find?_key_eq_some_iff distinct).2 ⟨listed, rfl⟩, differs,
        rfl, rfl⟩
    · rintro ⟨kept, new, found, brought, differs, isKept, isDropped⟩
      obtain ⟨listed, sameKey⟩ := (Search.find?_key_eq_some_iff distinct).1 brought
      obtain ⟨key, keptOrigin, droppedOrigin⟩ := conflict
      simp only at found sameKey isKept isDropped
      subst sameKey isKept isDropped
      exact ⟨new, listed, kept, found, differs, rfl⟩
  rw [absorb, mem_conflicts_foldl_keep_iff distinct, List.mem_append, or_assoc]
  exact or_congr_right (or_congr_right drops)

/-- Under the key of a conflict a set has the kept member, which is not the dropped one. -/
def Upholds (set : MemberSet) (conflict : MemberConflict) (kept dropped : Contribution) : Prop :=
  (set.find? conflict.key).map (·.member) = some kept.member ∧
    (set.find? conflict.key).map (·.member) ≠ some dropped.member

end MemberSet

namespace TypeGraph

variable {graph : TypeGraph} {node : Node} {entry : Node × Bindings} {key : String}
  {conflict : MemberConflict}

theorem mem_conflicts_absorbAll_iff {set : MemberSet} {entries : List (Node × Bindings)} :
    conflict ∈ (graph.absorbAll set entries).conflicts ↔
      conflict ∈ set.conflicts ∨ ∃ before parent after, entries = before ++ parent :: after ∧
        (conflict ∈ (graph.appliedMembers parent).conflicts ∨
          (graph.absorbAll set before).Collides (graph.appliedMembers parent) conflict) := by
  induction entries generalizing set with
  | nil => simp [absorbAll]
  | cons first rest ih =>
    rw [absorbAll_cons, ih,
      MemberSet.mem_conflicts_absorb_iff (graph.distinct_appliedMembers first), or_assoc]
    refine or_congr_right ?_
    constructor
    · rintro (here | ⟨before, parent, after, rfl, met⟩)
      · exact ⟨[], first, rest, rfl, here⟩
      · exact ⟨first :: before, parent, after, rfl, met⟩
    · rintro ⟨before, parent, after, split, met⟩
      rcases List.cons_eq_append_iff.1 split with ⟨rfl, same⟩ | ⟨others, rfl, same⟩
      · cases same
        exact .inl met
      · exact .inr ⟨others, parent, after, same, met⟩

section Suppliers

/-- A type without a member of its own under a key takes the one of its first supertype that has
one. -/
def TakesFrom (graph : TypeGraph) (key : String) (entry parent : Node × Bindings) : Prop :=
  entry.1.lastOf? key = none ∧ ∃ before after,
    graph.parents entry.1 entry.2 = before ++ parent :: after ∧
      ∀ earlier ∈ before, ¬ graph.Has key earlier

/-- What a type has under a key: its own member, or that of the type from which it is taken in any
number of steps. -/
def Supplies (graph : TypeGraph) (key : String) (entry : Node × Bindings)
    (contribution : Contribution) : Prop :=
  ∃ source, ReflTransGen (graph.TakesFrom key) entry source ∧
    ownContribution? source key = some contribution

theorem ascends_of_takesFrom {parent : Node × Bindings} (takes : graph.TakesFrom key entry parent) :
    graph.Ascends entry parent := by
  obtain ⟨-, before, after, split, -⟩ := takes
  rw [Ascends, split]
  exact List.mem_append_right _ List.mem_cons_self

theorem not_has_iff (known : entry.1 ∈ graph.nodes) :
    ¬ graph.Has key entry ↔ (graph.appliedMembers entry).find? key = none := by
  rw [← isSome_find?_appliedMembers_iff known, Bool.not_eq_true, Option.isSome_eq_false_iff,
    Option.isNone_iff_eq_none]

/-- The first of some types that has a member under a key is the one that counts. -/
theorem findSome?_eq_some_iff {entries : List (Node × Bindings)} {contribution : Contribution}
    (known : ∀ entry ∈ entries, entry.1 ∈ graph.nodes) :
    (entries.findSome? fun entry => (graph.appliedMembers entry).find? key) = some contribution ↔
      ∃ before first after, entries = before ++ first :: after ∧
        (∀ earlier ∈ before, ¬ graph.Has key earlier) ∧
          (graph.appliedMembers first).find? key = some contribution := by
  rw [List.findSome?_eq_some_iff]
  refine exists_congr fun before => exists_congr fun first => exists_congr fun after =>
    and_congr_right fun split => ?_
  rw [and_comm]
  refine and_congr_left fun _ => forall₂_congr fun earlier listed => (not_has_iff ?_).symm
  exact known earlier (split ▸ List.mem_append_left _ listed)

variable (acyclic : graph.IsAcyclic)
include acyclic

theorem IsAcyclic.supplies_of_find? {contribution : Contribution} :
    ∀ entry, entry.1 ∈ graph.nodes →
      (graph.appliedMembers entry).find? key = some contribution →
        graph.Supplies key entry contribution := by
  refine acyclic.induction fun entry known ih found => ?_
  rw [acyclic.find?_appliedMembers known, Option.or_eq_some_iff] at found
  rcases found with own | ⟨noOwn, inherited⟩
  · exact ⟨entry, .refl, own⟩
  · obtain ⟨before, parent, after, split, others, found⟩ :=
      (findSome?_eq_some_iff fun _ => known_of_ascends).1 inherited
    have takes : graph.TakesFrom key entry parent :=
      ⟨Option.map_eq_none_iff.1 noOwn, before, after, split, others⟩
    obtain ⟨source, path, own⟩ := ih parent (ascends_of_takesFrom takes) found
    exact ⟨source, path.head takes, own⟩

/-- A key finds what the type has under it. -/
theorem IsAcyclic.find?_eq_some_iff (known : entry.1 ∈ graph.nodes) {contribution : Contribution} :
    (graph.appliedMembers entry).find? key = some contribution ↔
      graph.Supplies key entry contribution := by
  refine ⟨acyclic.supplies_of_find? entry known, ?_⟩
  rintro ⟨source, path, own⟩
  induction path using ReflTransGen.head_induction_on with
  | refl => rw [acyclic.find?_appliedMembers known, own, Option.some_or]
  | @head entry parent takes _ ih =>
    have found := ih (known_of_ascends (ascends_of_takesFrom takes))
    obtain ⟨noOwn, before, after, split, others⟩ := takes
    rw [acyclic.find?_appliedMembers known, ownContribution?, noOwn, Option.map_none,
      Option.none_or]
    exact (findSome?_eq_some_iff fun _ => known_of_ascends).2
      ⟨before, parent, after, split, others, found⟩

end Suppliers

section Clashes

/-- The first of some types that has a member under a key, and the member that it has. -/
def FirstSupplies (graph : TypeGraph) (key : String) (entries : List (Node × Bindings))
    (contribution : Contribution) : Prop :=
  ∃ before first after, entries = before ++ first :: after ∧
    (∀ earlier ∈ before, ¬ graph.Has key earlier) ∧ graph.Supplies key first contribution

/-- At a type, a supertype has another member under a key than the first one in front of it that has
any.  The conflict names the types that declare the two. -/
structure Clash (graph : TypeGraph) (place : Node × Bindings) (conflict : MemberConflict)
    (kept dropped : Contribution) : Prop where
  between : ∃ before later after, graph.parents place.1 place.2 = before ++ later :: after ∧
    graph.FirstSupplies conflict.key before kept ∧ graph.Supplies conflict.key later dropped
  differ : kept.member ≠ dropped.member
  kept : conflict.kept = kept.origin
  dropped : conflict.dropped = dropped.origin

variable (acyclic : graph.IsAcyclic)
include acyclic

theorem IsAcyclic.find?_absorbAll_iff {entries : List (Node × Bindings)}
    (known : ∀ entry ∈ entries, entry.1 ∈ graph.nodes) {contribution : Contribution} :
    (graph.absorbAll .empty entries).find? key = some contribution ↔
      graph.FirstSupplies key entries contribution := by
  have start : MemberSet.empty.find? key = none := rfl
  rw [find?_absorbAll, start, Option.none_or, findSome?_eq_some_iff known]
  refine exists_congr fun before => exists_congr fun first => exists_congr fun after =>
    and_congr_right fun split => and_congr_right fun _ => acyclic.find?_eq_some_iff ?_
  exact known first (split ▸ List.mem_append_right _ List.mem_cons_self)

/-- A conflict of a type arises between its supertypes, or is one of a supertype. -/
theorem IsAcyclic.mem_conflicts_step_iff (known : entry.1 ∈ graph.nodes) :
    conflict ∈ (graph.appliedMembers entry).conflicts ↔
      (∃ kept dropped, graph.Clash entry conflict kept dropped) ∨
        ∃ parent, graph.Ascends entry parent ∧
          conflict ∈ (graph.appliedMembers parent).conflicts := by
  have absorbed : conflict ∈ (graph.appliedMembers entry).conflicts ↔
      conflict ∈ (graph.absorbAll .empty (graph.parents entry.1 entry.2)).conflicts := by
    rw [acyclic.appliedMembers_eq known]
    rfl
  have supplied {before after : List (Node × Bindings)} {later : Node × Bindings}
      (split : graph.parents entry.1 entry.2 = before ++ later :: after) (kept dropped) :
      (graph.absorbAll .empty before).find? conflict.key = some kept ∧
        (graph.appliedMembers later).find? conflict.key = some dropped ↔
      graph.FirstSupplies conflict.key before kept ∧
        graph.Supplies conflict.key later dropped := by
    have known' : ∀ parent ∈ before ++ later :: after, parent.1 ∈ graph.nodes := by
      rw [← split]
      exact fun _ => known_of_ascends
    exact and_congr
      (acyclic.find?_absorbAll_iff fun parent listed => known' parent (by simp [listed]))
      (acyclic.find?_eq_some_iff (known' later (by simp)))
  have start : conflict ∉ MemberSet.empty.conflicts := List.not_mem_nil
  rw [absorbed, mem_conflicts_absorbAll_iff, or_iff_right start]
  constructor
  · rintro ⟨before, later, after, split, above | collides⟩
    · exact .inr ⟨later, by simp [Ascends, split], above⟩
    · obtain ⟨kept, dropped, found, brought, differ, isKept, isDropped⟩ := collides
      exact .inl ⟨kept, dropped, ⟨before, later, after, split,
        (supplied split kept dropped).1 ⟨found, brought⟩⟩, differ, isKept, isDropped⟩
  · rintro (⟨kept, dropped, clash⟩ | ⟨parent, ascends, above⟩)
    · obtain ⟨before, later, after, split, members⟩ := clash.between
      obtain ⟨found, brought⟩ := (supplied split kept dropped).2 members
      exact ⟨before, later, after, split, .inr
        ⟨kept, dropped, found, brought, clash.differ, clash.kept, clash.dropped⟩⟩
    · obtain ⟨before, after, split⟩ := List.append_of_mem ascends
      exact ⟨before, parent, after, split, .inl above⟩

/-- The conflicts of a type are those that arise at any type on the way up. -/
theorem IsAcyclic.mem_conflicts_iff : ∀ entry, entry.1 ∈ graph.nodes →
    (conflict ∈ (graph.appliedMembers entry).conflicts ↔
      ∃ place kept dropped, ReflTransGen graph.Ascends entry place ∧
        graph.Clash place conflict kept dropped) := by
  refine acyclic.induction fun entry known ih => ?_
  rw [acyclic.mem_conflicts_step_iff known]
  constructor
  · rintro (⟨kept, dropped, clash⟩ | ⟨parent, ascends, above⟩)
    · exact ⟨entry, kept, dropped, .refl, clash⟩
    · obtain ⟨place, kept, dropped, path, clash⟩ := (ih parent ascends).1 above
      exact ⟨place, kept, dropped, path.head ascends, clash⟩
  · rintro ⟨place, kept, dropped, path, clash⟩
    rcases path.cases_head with rfl | ⟨parent, ascends, rest⟩
    · exact .inl ⟨kept, dropped, clash⟩
    · exact .inr ⟨parent, ascends, (ih parent ascends).2 ⟨place, kept, dropped, rest, clash⟩⟩

end Clashes

theorem Clash.upholds_iff {place : Node × Bindings} {kept dropped : Contribution}
    (clash : graph.Clash place conflict kept dropped) {set : MemberSet} :
    set.Upholds conflict kept dropped ↔
      (set.find? conflict.key).map (·.member) = some kept.member := by
  refine and_iff_left_of_imp fun isKept isDropped => clash.differ ?_
  exact Option.some.inj (isKept.symm.trans isDropped)

/-- The conflicts of a type are those between supertypes of any type on the way up, each with the
first member there as the kept one.  A conflict is upheld exactly when what the type ends up with
under the key is that member: always if no type on the way down declares the key or has an earlier
supertype with it, and for a type that declares the key only if it declares the kept member anew. -/
theorem conflicts_upheld_iff (acyclic : graph.IsAcyclic) (known : node ∈ graph.nodes) :
    (∀ conflict, conflict ∈ (graph.allMembers node).conflicts ↔
      ∃ place kept dropped, ReflTransGen graph.Ascends (node, []) place ∧
        graph.Clash place conflict kept dropped) ∧
    ∀ place conflict kept dropped, ReflTransGen graph.Ascends (node, []) place →
      graph.Clash place conflict kept dropped →
      ((graph.allMembers node).Upholds conflict kept dropped ↔
        ∃ supplied, graph.Supplies conflict.key (node, []) supplied ∧
          supplied.member = kept.member) ∧
      (ReflTransGen (graph.TakesFrom conflict.key) (node, []) place →
        place.1.lastOf? conflict.key = none →
          (graph.allMembers node).Upholds conflict kept dropped) ∧
      ∀ own, node.lastOf? conflict.key = some own →
        ((graph.allMembers node).Upholds conflict kept dropped ↔ own = kept.member) := by
  rw [← appliedMembers_nil]
  refine ⟨fun conflict => acyclic.mem_conflicts_iff (node, []) known, ?_⟩
  intro place conflict kept dropped path clash
  have upheld : (graph.appliedMembers (node, [])).Upholds conflict kept dropped ↔
      ∃ supplied, graph.Supplies conflict.key (node, []) supplied ∧
        supplied.member = kept.member := by
    rw [clash.upholds_iff, Option.map_eq_some_iff]
    exact exists_congr fun supplied => and_congr_left fun _ => acyclic.find?_eq_some_iff known
  refine ⟨upheld, fun takes noOwn => upheld.2 ?_, fun own last => ?_⟩
  · -- the place takes the member from the supertype that was kept
    obtain ⟨before, later, after, split, supplied, -⟩ := clash.between
    obtain ⟨ahead, first, behind, rfl, others, source, path, own⟩ := supplied
    refine ⟨kept, ⟨source, (takes.tail ⟨noOwn, ahead, behind ++ later :: after, ?_, others⟩).trans
      path, own⟩, rfl⟩
    simp [split]
  · rw [clash.upholds_iff, find?_appliedMembers_of_lastOf? last]
    simp

/-- A type with a field of some type. -/
def sibling (name : String) (type : Primitive) : Node :=
  { bareNode name [] [] with members := [plainField "id" (.primitive type)] }

/-- A type below two that have a field of one name and different types. -/
def belowSiblings (own : List Member) : Node :=
  { bareNode "Both" ["Left", "Right"] [] with members := own }

def siblings (own : List Member) : TypeGraph where
  nodes := [sibling "Left" .string, sibling "Right" .number, belowSiblings own]
  distinct := by simp [sibling, belowSiblings, bareNode]

theorem isAcyclic_siblings (own : List Member) : (siblings own).IsAcyclic := by
  refine isAcyclic_of_rank (fun name => if name = "Both" then 1 else 0) ?_
  -- the own members do not matter for the names of supertypes
  have supers : (belowSiblings own).supertypeNames = ["Left", "Right"] := rfl
  have names : (belowSiblings own).name = "Both" := rfl
  simp only [siblings, List.forall_mem_cons, supers, names]
  decide

/-- The fields of the two supertypes clash, whatever the type declares itself. -/
theorem clash_siblings (own : List Member) :
    (siblings own).Clash (belowSiblings own, []) ⟨"id", "Left", "Right"⟩
      ⟨plainField "id" (.primitive .string), "Left"⟩
      ⟨plainField "id" (.primitive .number), "Right"⟩ where
  between := ⟨[(sibling "Left" .string, [])], (sibling "Right" .number, []), [], rfl,
    ⟨[], _, [], rfl, by simp, _, .refl, rfl⟩, _, .refl, rfl⟩
  differ := by decide
  kept := rfl
  dropped := rfl

/-- A type without members of its own upholds the conflict. -/
theorem siblings_upheld :
    (siblings []).IsAcyclic ∧ belowSiblings [] ∈ (siblings []).nodes ∧
      ⟨"id", "Left", "Right"⟩ ∈ ((siblings []).allMembers (belowSiblings [])).conflicts ∧
      ((siblings []).allMembers (belowSiblings [])).Upholds ⟨"id", "Left", "Right"⟩
        ⟨plainField "id" (.primitive .string), "Left"⟩
        ⟨plainField "id" (.primitive .number), "Right"⟩ := by
  have acyclic := isAcyclic_siblings []
  have known : belowSiblings [] ∈ (siblings []).nodes := by decide
  have clash := clash_siblings []
  obtain ⟨reported, upheld⟩ := conflicts_upheld_iff acyclic known
  exact ⟨acyclic, known, (reported _).2 ⟨_, _, _, .refl, clash⟩,
    (upheld _ _ _ _ .refl clash).2.1 .refl rfl⟩

/-- A member in the way of the two fields. -/
def ownId : List Member :=
  [plainField "id" (.primitive .boolean)]

/-- A type that declares the field itself does not uphold the conflict, which is reported all the
same. -/
theorem siblings_overridden :
    (siblings ownId).IsAcyclic ∧ belowSiblings ownId ∈ (siblings ownId).nodes ∧
      ((siblings ownId).allMembers (belowSiblings ownId)).conflicts =
        [⟨"id", "Left", "Right"⟩] ∧
      (siblings ownId).Clash (belowSiblings ownId, []) ⟨"id", "Left", "Right"⟩
        ⟨plainField "id" (.primitive .string), "Left"⟩
        ⟨plainField "id" (.primitive .number), "Right"⟩ ∧
      ((siblings ownId).allMembers (belowSiblings ownId)).find? "id" =
        some ⟨plainField "id" (.primitive .boolean), "Both"⟩ ∧
      ¬ ((siblings ownId).allMembers (belowSiblings ownId)).Upholds ⟨"id", "Left", "Right"⟩
        ⟨plainField "id" (.primitive .string), "Left"⟩
        ⟨plainField "id" (.primitive .number), "Right"⟩ := by
  have found : ((siblings ownId).allMembers (belowSiblings ownId)).find? "id" =
      some ⟨plainField "id" (.primitive .boolean), "Both"⟩ := by
    cbv
  refine ⟨isAcyclic_siblings _, by decide, by cbv, clash_siblings _, found, ?_⟩
  rintro ⟨kept, -⟩
  rw [found] at kept
  revert kept
  decide

end TypeGraph

end TypeBridge
