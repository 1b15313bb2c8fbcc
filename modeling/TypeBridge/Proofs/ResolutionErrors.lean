import TypeBridge.Proofs.ClosureDistance
import TypeBridge.Proofs.FaultyReferences

/-!
# Errors of a closure are exact

A closure fails exactly when its roots lead to a type with a fault, and reports such a fault.
Members that no declaration lists have no part in it: a model without them has the same closure.
-/

namespace TypeBridge

instance (member : HostMember) : Decidable member.IsSkipped :=
  inferInstanceAs (Decidable (_ ∨ _))

mutual

/-- A type, with the types inside it, without the members that no declaration lists. -/
def HostType.pruned : HostType → HostType
  | ⟨name, span, kind, visibility, doc, generics, supertypes, members, constructors, nested,
      closed, variants, constants, annotations⟩ =>
    ⟨name, span, kind, visibility, doc, generics, supertypes,
      members.filter fun member => ¬ member.IsSkipped, constructors, prunedTypes nested, closed,
      variants, constants, annotations⟩

def prunedTypes : List HostType → List HostType
  | [] => []
  | type :: rest => type.pruned :: prunedTypes rest

end

namespace HostType

variable (type : HostType)

theorem prunedTypes_eq (types : List HostType) : prunedTypes types = types.map pruned := by
  induction types with
  | nil => rfl
  | cons first rest ih => rw [prunedTypes, ih, List.map_cons]

theorem pruned_eq : type.pruned = { type with
    members := type.members.filter fun member => ¬ member.IsSkipped
    nested := type.nested.map pruned } := by
  cases type
  rw [pruned, prunedTypes_eq]

@[simp] theorem name_pruned : type.pruned.name = type.name := by
  rw [pruned_eq]

@[simp] theorem visibility_pruned : type.pruned.visibility = type.visibility := by
  rw [pruned_eq]

@[simp] theorem generics_pruned : type.pruned.generics = type.generics := by
  rw [pruned_eq]

/-- The members that a declaration lists are all still there. -/
@[simp] theorem filter_members_pruned :
    type.pruned.members.filter HostView.isListed = type.members.filter HostView.isListed := by
  rw [pruned_eq, List.filter_filter]
  apply List.filter_congr
  intro member _
  rw [Bool.eq_iff_iff]
  simp [HostView.isListed_iff]

end HostType

/-- A model without the members that no declaration lists. -/
def HostModel.pruned (model : HostModel) : HostModel where
  types := model.types.map (·.pruned)
  distinct := by simpa [Function.comp_def] using model.distinct

namespace HostModel

variable (model : HostModel)

@[simp] theorem names_pruned : model.pruned.names = model.names := by
  simp [pruned, names]

@[simp] theorem get?_pruned (name : String) :
    model.pruned.get? name = (model.get? name).map (·.pruned) := by
  rw [get?, get?, pruned, List.find?_map]
  simp only [Function.comp_def, HostType.name_pruned]

@[simp] theorem contains_pruned (name : String) :
    model.pruned.contains name = model.contains name := by
  simp [contains]

end HostModel

namespace HostView

/-- A view of the model without the members that no declaration lists. -/
def pruned (view : HostView) : HostView :=
  ⟨view.model.pruned, view.allow⟩

variable (view : HostView)

theorem admitted?_pruned (name : String) :
    view.pruned.admitted? name = (view.admitted? name).map (·.pruned) := by
  simp [admitted?, pruned, Option.filter_map, Function.comp_def]

theorem varsIn_pruned : view.pruned.varsIn = view.varsIn := by
  funext name generics
  have outers : (Name.outers name).filterMap view.pruned.model.get? =
      ((Name.outers name).filterMap view.model.get?).map (·.pruned) := by
    rw [List.map_filterMap]
    exact List.filterMap_congr fun outer _ => view.model.get?_pruned outer
  rw [varsIn, varsIn, outerVars, outerVars, outers, ← List.map_reverse, List.flatMap_map]
  simp only [HostType.generics_pruned]

mutual

theorem resolve_pruned (expandable scope : List String) (path : String) : ∀ signature,
    view.pruned.resolve expandable scope path signature =
      view.resolve expandable scope path signature
  | .anything => by rw [resolve, resolve]
  | .anyBelow bound => by rw [resolve, resolve, resolve_pruned]
  | .anyAbove bound => by rw [resolve, resolve, resolve_pruned]
  | .array element => by rw [resolve, resolve, resolve_pruned]
  | .named name args => by
    have contains : view.pruned.model.contains name = view.model.contains name :=
      view.model.contains_pruned name
    rw [resolve, resolve, admitted?_pruned, varsIn_pruned, resolveAll_pruned, contains]
    cases view.admitted? name with
    | none => rfl
    | some type =>
      simp only [Option.map_some, HostType.generics_pruned]
      by_cases listed : name ∈ expandable
      · rw [dif_pos listed, dif_pos listed, boundsOf_pruned (expandable.erase name)]
      · rw [dif_neg listed, dif_neg listed]
termination_by signature => (expandable.length, sizeOf signature)
decreasing_by
  · exact Prod.Lex.right _ (by simp)
  · exact Prod.Lex.right _ (by simp)
  · exact Prod.Lex.right _ (by simp)
  · exact Prod.Lex.right _ (by rw [Signature.named.sizeOf_spec]; omega)
  · exact Prod.Lex.left _ _ (by
      rw [List.length_erase_of_mem listed]
      have := List.length_pos_of_mem listed
      omega)

theorem resolveAll_pruned (expandable scope : List String) (path : String) : ∀ signatures,
    view.pruned.resolveAll expandable scope path signatures =
      view.resolveAll expandable scope path signatures
  | [] => by rw [resolveAll, resolveAll]
  | signature :: rest => by rw [resolveAll, resolveAll, resolve_pruned, resolveAll_pruned]
termination_by signatures => (expandable.length, sizeOf signatures)
decreasing_by
  · exact Prod.Lex.right _ (by rw [List.cons.sizeOf_spec]; omega)
  · exact Prod.Lex.right _ (by rw [List.cons.sizeOf_spec]; omega)

theorem boundsOf_pruned (expandable scope : List String) (name : String) : ∀ generics,
    view.pruned.boundsOf expandable scope name generics =
      view.boundsOf expandable scope name generics
  | [] => by rw [boundsOf, boundsOf]
  | ⟨generic, none, _⟩ :: rest => by rw [boundsOf, boundsOf, boundsOf_pruned]
  | ⟨generic, some signature, _⟩ :: rest => by
    rw [boundsOf, boundsOf, boundsOf_pruned, resolve_pruned]
termination_by generics => (expandable.length, sizeOf generics)
decreasing_by
  · exact Prod.Lex.right _ (by rw [List.cons.sizeOf_spec]; omega)
  · exact Prod.Lex.right _ (by rw [List.cons.sizeOf_spec]; omega)
  · exact Prod.Lex.right _ (by
      rw [List.cons.sizeOf_spec, HostGeneric.mk.sizeOf_spec, Option.some.sizeOf_spec]
      omega)

end

theorem type_pruned : view.pruned.type = view.type := by
  funext scope path signature
  have names : view.pruned.model.names = view.model.names := view.model.names_pruned
  rw [HostView.type, HostView.type, names, resolve_pruned]

theorem member_pruned : view.pruned.member = view.member := by
  funext scope owner member
  unfold HostView.member HostView.generics HostView.parameters
  rw [type_pruned]

theorem nested_pruned (types : List HostType) :
    view.pruned.nested (types.map (·.pruned)) = view.nested types := by
  have names : ((types.map (·.pruned)).filter fun type =>
        type.visibility.isApi && view.allow.contains type.name).map (·.name) =
      (types.filter fun type =>
        type.visibility.isApi && view.allow.contains type.name).map (·.name) := by
    rw [List.filter_map, List.map_map]
    simp [Function.comp_def]
  unfold HostView.nested
  exact congrArg (fun names : List String => do
    names.forM Reading.mention
    return names) names

theorem variants_pruned (owner : String) (variants : List String) :
    view.pruned.variants owner variants = view.variants owner variants := by
  induction variants with
  | nil => rfl
  | cons variant rest ih =>
    have contains : view.pruned.model.contains variant = view.model.contains variant :=
      view.model.contains_pruned variant
    rw [HostView.variants, HostView.variants, contains, admitted?_pruned, ih]
    cases view.admitted? variant <;> rfl

/-- A type is read as it is without the members that no declaration lists. -/
theorem node_pruned (type : HostType) : view.pruned.node type.pruned = view.node type := by
  have contains : view.pruned.model.contains = view.model.contains :=
    funext view.model.contains_pruned
  have nested : view.pruned.nested type.pruned.nested = view.nested type.nested := by
    rw [type.pruned_eq]
    exact view.nested_pruned type.nested
  have members := type.filter_members_pruned
  unfold HostView.node HostView.generics
  rw [nested, members, contains, type_pruned, member_pruned, varsIn_pruned, variants_pruned,
    type.pruned_eq]

theorem grow_pruned (graph : TypeGraph) (queued queue : List String) :
    view.pruned.grow graph queued queue = view.grow graph queued queue := by
  have get? : ∀ name, view.pruned.model.get? name = (view.model.get? name).map (·.pruned) :=
    view.model.get?_pruned
  have unqueued : view.pruned.unqueued = view.unqueued := by
    funext queued names
    rw [HostView.unqueued, HostView.unqueued, pruned, view.model.names_pruned]
  induction graph, queued, queue using HostView.grow.induct view with
  | case1 graph queued => rw [HostView.grow, HostView.grow]
  | case2 graph queued name rest missing ih =>
    rw [HostView.grow, HostView.grow, get?, missing]
    exact ih
  | case3 graph queued name rest type found error refused =>
    rw [HostView.grow, HostView.grow, get?, found, Option.map_some]
    simp only [node_pruned, refused]
  | case4 graph queued name rest type found node mentioned reading fresh ih =>
    rw [HostView.grow, HostView.grow, get?, found, Option.map_some]
    simp only [node_pruned, reading, unqueued]
    exact ih

theorem closure_pruned (roots : List String) :
    view.pruned.closure roots = view.closure roots :=
  view.grow_pruned _ _ _

variable {view : HostView} {roots : List String}

/-- What stops the growth of a closure is a fault of a type that the roots lead to. -/
theorem exists_faults_of_grow {graph : TypeGraph} {queued queue : List String} {error : PassError}
    (reached : ∀ name ∈ queue, ∃ n, view.ReachedIn roots n name)
    (failed : view.grow graph queued queue = .error error) :
    ∃ n name, view.ReachedIn roots n name ∧ view.Faults name error := by
  induction graph, queued, queue using HostView.grow.induct view with
  | case1 graph queued =>
    rw [HostView.grow] at failed
    cases failed
  | case2 graph queued name rest missing ih =>
    rw [HostView.grow, missing] at failed
    exact ih (fun other member => reached other (List.mem_cons_of_mem _ member)) failed
  | case3 graph queued name rest type found error' refused =>
    rw [HostView.grow, found] at failed
    simp only [refused, Except.error.injEq] at failed
    obtain ⟨n, here⟩ := reached name List.mem_cons_self
    obtain ⟨-, rfl⟩ := HostModel.get?_eq_some_iff.1 found
    have blamed := view.node_blames type error' refused
    rw [failed] at blamed
    rcases blamed.exists_faults found with faults | ⟨met, leads, faults⟩
    · exact ⟨n, type.name, here, faults⟩
    · exact ⟨n + 1, met, here.step leads, faults⟩
  | case4 graph queued name rest type found node mentioned reading fresh ih =>
    rw [HostView.grow, found] at failed
    simp only [reading] at failed
    refine ih (fun other member => ?_) failed
    rcases List.mem_append.1 member with old | new
    · exact reached other (List.mem_cons_of_mem _ old)
    · obtain ⟨n, here⟩ := reached name List.mem_cons_self
      have mention := (mem_unqueued_iff.1 new).1
      exact ⟨n + 1, here.step ((mem_mentioned_iff found reading).1 mention)⟩

theorem exists_faults_of_closure {error : PassError} (failed : view.closure roots = .error error) :
    ∃ n name, view.ReachedIn roots n name ∧ view.Faults name error :=
  exists_faults_of_grow (fun _ member => ⟨0, .root (List.mem_eraseDups.1 member)⟩) failed

theorem Faults.exists_type {name : String} {error : PassError} (faults : view.Faults name error) :
    ∃ type, view.model.get? name = some type := by
  cases faults with
  | reference found _ _ | variant found _ _ => exact ⟨_, found⟩

/-- A closure that succeeds has no fault in its reach. -/
theorem not_faults_of_closure {graph : TypeGraph} (closed : view.closure roots = .ok graph)
    {n : Nat} {name : String} (reached : view.ReachedIn roots n name) (error : PassError) :
    ¬ view.Faults name error := by
  intro faults
  obtain ⟨type, found⟩ := faults.exists_type
  obtain ⟨known, rfl⟩ := HostModel.get?_eq_some_iff.1 found
  have member : type.name ∈ graph.names :=
    ((closure_breadthFirst closed).2.1 type.name).2 ⟨List.mem_map_of_mem known, n, reached⟩
  obtain ⟨node, inGraph, same⟩ := List.mem_map.1 member
  obtain ⟨type', mentioned, found', reading⟩ := (isClosure_of_closure closed).read node inGraph
  rw [same] at found'
  obtain rfl := Option.some.inj (found.symm.trans found')
  exact node_flawless found reading error faults

/-- A closure fails exactly when the roots lead to a type with a fault, the error is such a fault,
and members that no declaration lists make no difference. -/
theorem closure_error_iff_faults (view : HostView) (roots : List String) :
    ((∃ error, view.closure roots = .error error) ↔
        ∃ n name error, view.ReachedIn roots n name ∧ view.Faults name error) ∧
      (∀ error, view.closure roots = .error error →
        ∃ n name, view.ReachedIn roots n name ∧ view.Faults name error) ∧
      view.pruned.closure roots = view.closure roots := by
  refine ⟨⟨?_, ?_⟩, fun error failed => exists_faults_of_closure failed, view.closure_pruned roots⟩
  · rintro ⟨error, failed⟩
    obtain ⟨n, name, reached, faults⟩ := exists_faults_of_closure failed
    exact ⟨n, name, error, reached, faults⟩
  · rintro ⟨n, name, error, reached, faults⟩
    cases outcome : view.closure roots with
    | error other => exact ⟨other, rfl⟩
    | ok graph => exact absurd faults (not_faults_of_closure outcome reached error)

/-- A missing type is reported where the bound of a supertype needs it.  The static member and the
arguments of the type outside of the allow-list need it too, and are passed over. -/
example : (HostView.mk ⟨[
    { Snapshot.plainType with
      name := "a.A"
      supertypes := [.named "b.B" [.named "a.X" []], .named "a.C" []]
      members := [{ Snapshot.plainMember with type := .named "a.X" [], isStatic := true }] },
    { Snapshot.plainType with
      name := "a.C", generics := [⟨"T", some (.named "a.X" []), none⟩] }], by decide⟩
    ⟨["a"]⟩).closure ["a.A"] = .error (.unresolvedType "a.X" "a.C<T>") := by
  cbv

end HostView

end TypeBridge
