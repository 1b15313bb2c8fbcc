import Mathlib.Algebra.Order.BigOperators.Group.List
import Mathlib.Algebra.Order.Ring.Nat
import Mathlib.Logic.Relation
import TypeBridge.Graph.TypeGraph
import TypeBridge.Host.HostModel

/-!
# A walk meets its goal when the start leads to it

What a walk has looked at leads only to what it has looked at or still has ahead, and every look
keeps that.  So a walk that runs out has missed nothing.  A type is assignable to another one
exactly when direct supertypes lead from the one to the other, in a type graph as in a host model,
and the subtypes of a type are the other types of the graph that lead to it.
-/

namespace TypeBridge

open Relation

namespace Search

variable {α : Type} [DecidableEq α] {next : α → List α} {inside : List α}

/-- A walk goes on from one element to another; it does so from inner elements only. -/
def GoesOn (next : α → List α) (inside : List α) (a b : α) : Prop :=
  a ∈ inside ∧ b ∈ next a

namespace Walk

variable {start goal : α} {walk : Walk α}

/-- Everything that a seen element leads to in one step is seen or still ahead. -/
def IsPending (next : α → List α) (inside : List α) (walk : Walk α) : Prop :=
  ∀ a ∈ walk.seen, ∀ b, GoesOn next inside a b → b ∈ walk.seen ∨ b ∈ walk.ahead

omit [DecidableEq α] in
theorem IsPending.mem_or_of_path {a c : α} (pending : walk.IsPending next inside)
    (met : a ∈ walk.seen) (path : ReflTransGen (GoesOn next inside) a c) :
    c ∈ walk.seen ∨ ∃ b ∈ walk.ahead, ReflTransGen (GoesOn next inside) b c := by
  -- the path leaves the seen elements at most once, and then through those ahead
  induction path using ReflTransGen.head_induction_on with
  | refl => exact .inl met
  | head step path ih =>
    rcases pending _ met _ step with seen | queued
    · exact ih seen
    · exact .inr ⟨_, queued, path⟩

/-- What is known of a walk from `start` that has not met `goal`. -/
structure Follows (next : α → List α) (inside : List α) (start goal : α) (walk : Walk α) :
    Prop where
  reached : ∀ a ∈ walk.ahead, ReflTransGen (GoesOn next inside) start a
  missed : goal ∉ walk.seen
  begun : start ∈ walk.seen ∨ start ∈ walk.ahead
  pending : walk.IsPending next inside

omit [DecidableEq α] in
theorem follows_start (start goal : α) : Follows next inside start goal ⟨[start], []⟩ where
  reached a known := by
    rw [List.mem_singleton.1 known]
  missed := List.not_mem_nil
  begun := .inr (List.mem_singleton_self start)
  pending a met := absurd met List.not_mem_nil

omit [DecidableEq α] in
theorem Follows.not_path_of_ahead_eq_nil (follows : walk.Follows next inside start goal)
    (none : walk.ahead = []) : ¬ ReflTransGen (GoesOn next inside) start goal := by
  intro path
  have seen : start ∈ walk.seen := follows.begun.resolve_right (by simp [none])
  rcases follows.pending.mem_or_of_path seen path with met | ⟨b, queued, -⟩
  · exact follows.missed met
  · simp [none] at queued

omit [DecidableEq α] in
/-- An element that was seen before is passed over. -/
theorem Follows.pass {a : α} {ahead seen : List α}
    (follows : Follows next inside start goal ⟨a :: ahead, seen⟩) (met : a ∈ seen) :
    Follows next inside start goal ⟨ahead, seen⟩ where
  reached b known := follows.reached b (List.mem_cons_of_mem a known)
  missed := follows.missed
  begun := by
    rcases follows.begun with before | queued
    · exact .inl before
    · rcases List.mem_cons.1 queued with rfl | later
      · exact .inl met
      · exact .inr later
  pending b before c step := by
    rcases follows.pending b before c step with known | queued
    · exact .inl known
    · rcases List.mem_cons.1 queued with rfl | later
      · exact .inl met
      · exact .inr later

omit [DecidableEq α] in
/-- A fresh element is seen from now on, and everything that it leads to in one step is ahead. -/
theorem Follows.look {a : α} {ahead seen ahead' : List α}
    (follows : Follows next inside start goal ⟨a :: ahead, seen⟩) (other : a ≠ goal)
    (kept : ahead ⊆ ahead') (more : ∀ b, GoesOn next inside a b → b ∈ ahead')
    (only : ∀ b ∈ ahead', b ∈ ahead ∨ GoesOn next inside a b) :
    Follows next inside start goal ⟨ahead', a :: seen⟩ where
  reached b known := by
    rcases only b known with before | step
    · exact follows.reached b (List.mem_cons_of_mem a before)
    · exact (follows.reached a List.mem_cons_self).tail step
  missed met := (List.mem_cons.1 met).elim (Ne.symm other) follows.missed
  begun := by
    rcases follows.begun with before | queued
    · exact .inl (List.mem_cons_of_mem a before)
    · rcases List.mem_cons.1 queued with rfl | later
      · exact .inl List.mem_cons_self
      · exact .inr (kept later)
  pending b met c step := by
    rcases List.mem_cons.1 met with rfl | before
    · exact .inr (more c step)
    · rcases follows.pending b before c step with known | queued
      · exact .inl (List.mem_cons_of_mem a known)
      · rcases List.mem_cons.1 queued with rfl | later
        · exact .inl List.mem_cons_self
        · exact .inr (kept later)

/-- The answer is right, or the walk is still followed. -/
def Turn.Follows (next : α → List α) (inside : List α) (start goal : α) : Turn α → Prop
  | .ended met => met = true ↔ ReflTransGen (GoesOn next inside) start goal
  | .onwards later => later.Follows next inside start goal

theorem Follows.turn (follows : walk.Follows next inside start goal) :
    (walk.turn next inside goal).Follows next inside start goal := by
  obtain ⟨_ | ⟨a, ahead⟩, seen⟩ := walk
  · simpa [Walk.turn, Turn.Follows] using follows.not_path_of_ahead_eq_nil rfl
  · simp only [Walk.turn]
    split
    · next same => simpa [Turn.Follows, same] using follows.reached a List.mem_cons_self
    · next other =>
      split
      · next met => exact follows.pass met
      · split
        · next known =>
          refine follows.look other (List.subset_append_right _ _) ?_ ?_
          · exact fun b step => List.mem_append_left _ (List.mem_reverse.2 step.2)
          · intro b listed
            rcases List.mem_append.1 listed with neighbour | before
            · exact .inr ⟨known, List.mem_reverse.1 neighbour⟩
            · exact .inl before
        · next outside =>
          exact follows.look other (List.Subset.refl _) (fun b step => absurd step.1 outside)
            fun b before => .inl before

/-- A followed walk meets its goal exactly when the start leads to it. -/
theorem Follows.meets_iff (follows : walk.Follows next inside start goal) :
    walk.meets next inside goal = true ↔ ReflTransGen (GoesOn next inside) start goal := by
  induction walk using Walk.meets.induct next inside goal with
  | case1 walk met turned =>
    have settled := follows.turn
    rw [turned] at settled
    rw [meets, turned]
    exact settled
  | case2 walk later turned ih =>
    have still := follows.turn
    rw [turned] at still
    rw [meets, turned]
    exact ih still

/-- The answer of a walk that may take some number of looks. -/
def within (next : α → List α) (inside : List α) (goal : α) : Nat → Walk α → Option Bool
  | 0, _ => none
  | looks + 1, walk =>
    match walk.turn next inside goal with
    | .ended met => some met
    | .onwards later => later.within next inside goal looks

/-- How many neighbours the elements have that a walk may still go on from. -/
def remaining (next : α → List α) (inside seen : List α) : Nat :=
  (inside.map fun a => if a ∈ seen then 0 else (next a).length).sum

theorem remaining_cons_le (next : α → List α) (inside seen : List α) (a : α) :
    remaining next inside (a :: seen) ≤ remaining next inside seen := by
  apply List.sum_le_sum
  intro b _
  by_cases met : b ∈ seen
  · simp [met]
  · rw [if_neg met]
    split
    · exact Nat.zero_le _
    · exact le_rfl

theorem remaining_cons_add_le (next : α → List α) {inside seen : List α} {a : α}
    (known : a ∈ inside) (fresh : a ∉ seen) :
    remaining next inside (a :: seen) + (next a).length ≤ remaining next inside seen := by
  induction inside with
  | nil => simp at known
  | cons b rest ih =>
    simp only [remaining, List.map_cons, List.sum_cons] at ih ⊢
    by_cases same : b = a
    · have fewer := remaining_cons_le next rest seen a
      simp only [remaining] at fewer
      rw [if_pos (by simp [same]), if_neg (by rwa [same]), same]
      omega
    · have fewer := ih ((List.mem_cons.1 known).resolve_left (Ne.symm same))
      by_cases met : b ∈ seen
      · rw [if_pos (List.mem_cons_of_mem _ met), if_pos met]
        omega
      · rw [if_neg (by simp [met, same]), if_neg met]
        omega

/-- A look takes one element away, and puts the neighbours of a fresh one in its place. -/
theorem turn_load_lt {later : Walk α} (turned : walk.turn next inside goal = .onwards later) :
    later.ahead.length + remaining next inside later.seen <
      walk.ahead.length + remaining next inside walk.seen := by
  obtain ⟨_ | ⟨a, ahead⟩, seen⟩ := walk
  · cases turned
  · simp only [turn] at turned
    split at turned
    · cases turned
    · split at turned
      · cases turned
        simp
      · next fresh =>
        split at turned
        · next known =>
          cases turned
          have paid := remaining_cons_add_le next known fresh
          simp only [List.length_append, List.length_reverse, List.length_cons]
          omega
        · cases turned
          have fewer := remaining_cons_le next inside seen a
          simp only [List.length_cons]
          omega

/-- A walk looks at no more elements than it has ahead and may still put there. -/
theorem within_eq_some {looks : Nat}
    (enough : walk.ahead.length + remaining next inside walk.seen < looks) :
    walk.within next inside goal looks = some (walk.meets next inside goal) := by
  induction looks generalizing walk with
  | zero => omega
  | succ looks ih =>
    rw [within, meets]
    split
    · next turned => rw [turned]
    · next later turned =>
      rw [turned]
      have less := turn_load_lt turned
      exact ih (by omega)

end Walk

theorem reaches_iff {start goal : α} :
    reaches next inside start goal = true ↔ ReflTransGen (GoesOn next inside) start goal :=
  (Walk.follows_start start goal).meets_iff

/-- A walk has its answer after as many looks as there are neighbours of inner elements, and two
more: one at the start, and one that finds nothing ahead. -/
theorem within_eq_reaches (next : α → List α) (inside : List α) (start goal : α) :
    (Walk.mk [start] []).within next inside goal
        ((inside.map fun a => (next a).length).sum + 2) =
      some (reaches next inside start goal) := by
  apply Walk.within_eq_some
  simp [Walk.remaining]
  omega

end Search

namespace TypeGraph

variable {graph : TypeGraph} {sub super target : String}

/-- A type of the graph has another one as a direct supertype. -/
def Extends (graph : TypeGraph) (sub super : String) : Prop :=
  super ∈ graph.supertypeNames sub

/-- Direct supertypes lead from one type to another in any number of steps. -/
abbrev Inherits (graph : TypeGraph) : String → String → Prop :=
  ReflTransGen graph.Extends

theorem extends_iff :
    graph.Extends sub super ↔
      ∃ node ∈ graph.nodes, node.name = sub ∧ super ∈ node.supertypeNames := by
  unfold Extends supertypeNames
  constructor
  · intro named
    cases found : graph.get? sub with
    | none => simp [found] at named
    | some node =>
      obtain ⟨known, same⟩ := get?_eq_some_iff.1 found
      exact ⟨node, known, same, by simpa [found] using named⟩
  · rintro ⟨node, known, same, named⟩
    rw [get?_eq_some_iff.2 ⟨known, same⟩]
    exact named

theorem goesOn_supertypeNames :
    Search.GoesOn graph.supertypeNames graph.names = graph.Extends := by
  ext sub super
  -- a name outside the graph has no supertypes to go on to
  refine ⟨And.right, fun extends_ => ⟨?_, extends_⟩⟩
  obtain ⟨node, known, rfl, -⟩ := extends_iff.1 extends_
  exact List.mem_map_of_mem known

theorem isAssignable_iff : graph.isAssignable sub super = true ↔ graph.Inherits sub super := by
  rw [isAssignable, Search.reaches_iff, goesOn_supertypeNames]

theorem mem_subtypesOf_iff :
    sub ∈ graph.subtypesOf target ↔
      sub ∈ graph.names ∧ sub ≠ target ∧ graph.Inherits sub target := by
  simp [subtypesOf, isAssignable_iff]

theorem subtypesOf_sublist : (graph.subtypesOf target).Sublist graph.names :=
  List.filter_sublist

end TypeGraph

namespace HostModel

variable {model : HostModel} {sub super : String}

/-- A type of the model declares a name as a direct supertype. -/
def Extends (model : HostModel) (sub super : String) : Prop :=
  super ∈ model.supertypeNames sub

theorem extends_iff :
    model.Extends sub super ↔
      ∃ type, model.get? sub = some type ∧ ∃ args, .named super args ∈ type.supertypes := by
  have heads : ∀ signature : Signature,
      signature.head? = some super ↔ ∃ args, signature = .named super args := by
    intro signature
    cases signature <;> simp [Signature.head?, eq_comm]
  unfold Extends supertypeNames
  cases model.get? sub with
  | none => simp
  | some type => simp [HostType.supertypeNames, heads]

theorem goesOn_supertypeNames :
    Search.GoesOn model.supertypeNames model.names = model.Extends := by
  ext sub super
  refine ⟨And.right, fun extends_ => ⟨?_, extends_⟩⟩
  obtain ⟨type, found, -⟩ := extends_iff.1 extends_
  exact mem_names_of_get? found

theorem isAssignable_iff :
    model.isAssignable sub super = true ↔ ReflTransGen model.Extends sub super := by
  rw [isAssignable, Search.reaches_iff, goesOn_supertypeNames]

end HostModel

end TypeBridge
