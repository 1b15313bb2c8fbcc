import TypeBridge.Proofs.NodeReading
import TypeBridge.Proofs.ResolutionCalls

/-!
# Resolution with a limited depth

Resolution as it goes on: all calls share one queue and one set of the types whose bounds are being
resolved, and calls may be nested up to a given depth only.  A run that would go deeper is lost.

No run is lost when the depth reaches the rank of its call.  It leaves the set as it found it,
whatever was in the set, and it makes and queues what resolving the signature on its own makes and
mentions.
-/

namespace TypeBridge

/-- What the calls of a resolution share. -/
structure Work where
  /-- Names that are still to be read. -/
  queue : List String
  /-- Names that were in the queue before or still are. -/
  queued : List String
  /-- Types whose bounds are being resolved. -/
  busy : List String

namespace Work

def enqueue (work : Work) (name : String) : Work :=
  if name ∈ work.queued then work
  else { work with queue := work.queue ++ [name], queued := work.queued ++ [name] }

def enqueueAll (work : Work) (names : List String) : Work :=
  names.foldl enqueue work

theorem busy_enqueue (work : Work) (name : String) : (work.enqueue name).busy = work.busy := by
  unfold enqueue
  split <;> rfl

theorem busy_enqueueAll (work : Work) (names : List String) :
    (work.enqueueAll names).busy = work.busy := by
  induction names generalizing work with
  | nil => rfl
  | cons name rest ih => exact (ih _).trans (busy_enqueue work name)

theorem enqueue_withBusy (work : Work) (busy : List String) (name : String) :
    { work with busy }.enqueue name = { work.enqueue name with busy } := by
  unfold enqueue
  split <;> rfl

/-- The queue does not depend on the set. -/
theorem enqueueAll_withBusy (work : Work) (busy names : List String) :
    { work with busy }.enqueueAll names = { work.enqueueAll names with busy } := by
  induction names generalizing work with
  | nil => rfl
  | cons name rest ih =>
    rw [enqueueAll, List.foldl_cons, enqueue_withBusy]
    exact ih (work.enqueue name)

end Work

/-- A part of a resolution.  It changes what the calls share, or is a fatal error, or is lost. -/
abbrev Limited :=
  StateT Work (ExceptT PassError Option)

namespace Limited

variable {α : Type}

def lost : Limited α :=
  fun _ => ExceptT.mk none

def enqueue (name : String) : Limited Unit :=
  modify (·.enqueue name)

/-- Run the inner part with a name in the set, and take the name out again.  With the name in the
set before it is the other part. -/
def during (name : String) (again inner : Limited α) : Limited α := do
  let work ← get
  if name ∈ work.busy then again
  else do
    set { work with busy := name :: work.busy }
    let a ← inner
    modify fun work => { work with busy := work.busy.erase name }
    return a

end Limited

namespace HostView

open Limited

/-- The arguments of a reference to a type that gives none. -/
def rawArguments (view : HostView)
    (resolve : List String → String → Signature → Limited ResolvedType) (name : String)
    (generics : List HostGeneric) : Limited (List ResolvedType) :=
  during name (pure (List.replicate generics.length .unknown)) <|
    generics.mapM fun generic =>
      match generic.bound with
      | none => pure .unknown
      | some bound => do
        let type ← resolve (view.varsIn name generics) (name ++ "<" ++ generic.name ++ ">") bound
        return if type.vars.isEmpty then type else .unknown

/-- Resolve a signature with calls nested up to a depth. -/
def resolveWithin (view : HostView) :
    Nat → List String → String → Signature → Limited ResolvedType
  | 0, _, _, _ => lost
  | depth + 1, scope, path, signature =>
    match signature with
    | .anything => pure .anything
    | .anyBelow bound => return .anyBelow (← view.resolveWithin depth scope path bound)
    | .anyAbove bound => return .anyAbove (← view.resolveWithin depth scope path bound)
    | .array element => return .array (← view.resolveWithin depth scope path element)
    | .named name args =>
      if args.isEmpty && scope.contains name then pure (.var name)
      else
        match Builtin.ofName? name with
        | some builtin => return builtin.apply (← args.mapM (view.resolveWithin depth scope path))
        | none =>
          match view.admitted? name with
          | none =>
            if view.allow.contains name && !view.model.contains name then
              throw (.unresolvedType name path)
            else pure .unknown
          | some type => do
            enqueue name
            if !args.isEmpty && args.length != type.generics.length then
              throw (.genericArity name path type.generics.length args.length)
            else if !args.isEmpty then
              return .named name (← args.mapM (view.resolveWithin depth scope path))
            else
              return .named name
                (← view.rawArguments (view.resolveWithin depth) name type.generics)

def genericsWithin (view : HostView) (depth : Nat) (scope : List String) (path : String)
    (generics : List HostGeneric) : Limited (List Generic) :=
  generics.mapM fun generic => do
    let bound ←
      match generic.bound with
      | none => pure none
      | some signature =>
        some <$> view.resolveWithin depth scope (path ++ "<" ++ generic.name ++ ">") signature
    return ⟨generic.name, bound, generic.variance⟩

def parametersWithin (view : HostView) (depth : Nat) (scope : List String) (path : String)
    (parameters : List HostParameter) : Limited (List Parameter) :=
  parameters.mapM fun parameter => do
    let type ←
      view.resolveWithin depth scope (path ++ "(" ++ parameter.name ++ ")") parameter.type
    return ⟨parameter.name, type, parameter.isNullable⟩

def memberWithin (view : HostView) (depth : Nat) (scope : List String) (owner : String)
    (member : HostMember) : Limited Member := do
  let path := owner ++ "." ++ member.name
  let inner := member.scopeIn scope
  let kind ←
    if member.isMethod then do
      let generics ← view.genericsWithin depth inner path member.generics
      let parameters ← view.parametersWithin depth inner path member.parameters
      pure (MemberKind.method parameters generics)
    else pure .field
  let type ← view.resolveWithin depth inner path member.type
  return {
    name := member.name
    kind
    type
    nullable := member.isNullable
    optional := member.optional
    doc := member.doc }

def variantsWithin (view : HostView) (owner : String) : List String → Limited (List String)
  | [] => pure []
  | variant :: rest =>
    if !view.model.contains variant then throw (.unknownVariant owner variant)
    else
      match view.admitted? variant with
      | none => view.variantsWithin owner rest
      | some _ => do
        enqueue variant
        let others ← view.variantsWithin owner rest
        return variant :: others

/-- Read a host type with calls nested up to a depth. -/
def nodeWithin (view : HostView) (depth : Nat) (type : HostType) : Limited Node := do
  let scope := view.varsIn type.name type.generics
  let generics ← view.genericsWithin depth scope type.name type.generics
  let supertypes ←
    type.supertypes.mapM (view.resolveWithin depth scope (type.name ++ " (supertype)"))
  let members ← (type.members.filter isListed).mapM (view.memberWithin depth scope type.name)
  (view.innerNames type).forM enqueue
  match (Name.outer? type.name).filter view.model.contains with
  | none => pure ()
  | some outer => enqueue outer
  let variants ← view.variantsWithin type.name type.variants
  return {
    name := type.name
    kind := type.kind
    doc := type.doc
    generics
    members
    supertypes := supertypes.filter fun supertype => supertype.name?.isSome
    nested := view.innerNames type
    variants
    constants := type.constants
    index := 0 }

end HostView

/-- What a reading comes to when what it mentions is queued. -/
def Reading.queuing {α : Type} (work : Work) : Reading α → Except PassError (α × Work)
  | .error error => .error error
  | .ok (a, mentioned) => .ok (a, work.enqueueAll mentioned)

namespace Limited

variable {α β : Type} {busy : List String}

/-- With some types in the set, a part of a resolution is not lost, leaves the set, and does what a
reading says. -/
def Follows (busy : List String) (part : Limited α) (reading : Reading α) : Prop :=
  ∀ work : Work, work.busy = busy → (part.run work).run = some (reading.queuing work)

theorem Follows.pure (a : α) : Follows busy (pure a) (Pure.pure a) :=
  fun _ _ => rfl

theorem Follows.refuse (error : PassError) :
    Follows busy (throw error : Limited α) (Reading.refuse error) :=
  fun _ _ => rfl

theorem Follows.enqueue (name : String) :
    Follows busy (enqueue name) (Reading.mention name) :=
  fun _ _ => rfl

theorem Follows.bind {part : Limited α} {reading : Reading α} {next : α → Limited β}
    {nextReading : α → Reading β} (first : Follows busy part reading)
    (rest : ∀ a, Follows busy (next a) (nextReading a)) :
    Follows busy (part >>= next) (reading >>= nextReading) := by
  intro work same
  rw [StateT.run_bind, ExceptT.run_bind, first work same]
  rcases Reading.eq_refuse_or_result reading with ⟨error, rfl⟩ | ⟨a, mentioned, rfl⟩
  · rfl
  refine (rest a (work.enqueueAll mentioned) ((work.busy_enqueueAll mentioned).trans same)).trans ?_
  rcases Reading.eq_refuse_or_result (nextReading a) with ⟨error, read⟩ | ⟨b, further, read⟩
  · rw [read, Reading.result_bind_refuse read]
    rfl
  · rw [read, Reading.result_bind_result read]
    simp only [Reading.result, Reading.queuing, Work.enqueueAll, List.foldl_append]

theorem Follows.bind_pure {part : Limited α} {reading : Reading α} (f : α → β)
    (first : Follows busy part reading) :
    Follows busy (part >>= fun a => Pure.pure (f a)) (reading >>= fun a => Pure.pure (f a)) :=
  first.bind fun a => .pure (f a)

theorem Follows.map {part : Limited α} {reading : Reading α} (f : α → β)
    (first : Follows busy part reading) : Follows busy (f <$> part) (f <$> reading) := by
  rw [map_eq_pure_bind, map_eq_pure_bind]
  exact first.bind_pure f

theorem Follows.mapM {part : α → Limited β} {reading : α → Reading β} {all : List α}
    (each : ∀ a ∈ all, Follows busy (part a) (reading a)) :
    Follows busy (all.mapM part) (all.mapM reading) := by
  induction all with
  | nil => exact .pure []
  | cons a rest ih =>
    rw [List.mapM_cons, List.mapM_cons]
    refine (each a List.mem_cons_self).bind fun b => ?_
    exact (ih fun other later => each other (List.mem_cons_of_mem _ later)).bind_pure (b :: ·)

theorem Follows.enqueueAll (names : List String) :
    Follows busy (names.forM Limited.enqueue) (names.forM Reading.mention) := by
  induction names with
  | nil => exact .pure ()
  | cons name rest ih => exact (Follows.enqueue name).bind fun _ => ih

/-- A name that was in the set before is still in it afterwards. -/
theorem Follows.during_mem {name : String} {again inner : Limited α} {reading : Reading α}
    (entered : name ∈ busy) (follows : Follows busy again reading) :
    Follows busy (during name again inner) reading := by
  intro work same
  rw [during, StateT.run_bind, StateT.run_get, pure_bind, if_pos (same ▸ entered)]
  exact follows work same

/-- A name that was not in the set is in it while the inner part runs, and not afterwards. -/
theorem Follows.during_notMem {name : String} {again inner : Limited α} {reading : Reading α}
    (idle : name ∉ busy) (follows : Follows (name :: busy) inner reading) :
    Follows busy (during name again inner) reading := by
  rintro work rfl
  have runs := follows { work with busy := name :: work.busy } rfl
  rw [during, StateT.run_bind, StateT.run_get, pure_bind, if_neg idle, StateT.run_bind,
    StateT.run_set, pure_bind, StateT.run_bind, ExceptT.run_bind, runs]
  rcases Reading.eq_refuse_or_result reading with ⟨error, rfl⟩ | ⟨a, mentioned, rfl⟩
  · rfl
  · simp only [Reading.result, Reading.queuing]
    rw [work.enqueueAll_withBusy]
    change some (Except.ok (a, { work.enqueueAll mentioned with
      busy := (name :: work.busy).erase name })) = _
    rw [List.erase_cons_head, ← work.busy_enqueueAll mentioned]

end Limited

namespace HostView

open Limited

variable {view : HostView}

theorem resolveAll_eq_mapM (view : HostView) (expandable scope : List String) (path : String)
    (signatures : List Signature) : view.resolveAll expandable scope path signatures =
      signatures.mapM (view.resolve expandable scope path) := by
  induction signatures with
  | nil =>
    unfold resolveAll
    rfl
  | cons signature rest ih => rw [resolveAll, List.mapM_cons, ih]

/-- A call within a depth does what resolving its signature on its own does. -/
def Answers (view : HostView) (depth : Nat) (call : Call) : Prop :=
  ∀ path expandable, view.Leaves call.busy expandable →
    Follows call.busy (view.resolveWithin depth call.placed.scope path call.placed.signature)
      (view.resolve expandable call.placed.scope path call.placed.signature)

theorem follows_mapM {depth : Nat} {busy scope expandable : List String} {args : List Signature}
    (leaves : view.Leaves busy expandable)
    (answers : ∀ arg ∈ args, view.Answers depth ⟨busy, ⟨scope, arg⟩⟩) (path : String) :
    Follows busy (args.mapM (view.resolveWithin depth scope path))
      (view.resolveAll expandable scope path args) := by
  rw [resolveAll_eq_mapM]
  exact .mapM fun arg given => answers arg given path expandable leaves

theorem follows_boundsOf {depth : Nat} {busy scope expandable : List String} (name : String)
    {generics : List HostGeneric} (leaves : view.Leaves busy expandable)
    (answers : ∀ bound ∈ boundsIn scope generics, view.Answers depth ⟨busy, bound⟩) :
    Follows busy
      (generics.mapM fun generic =>
        match generic.bound with
        | none => pure .unknown
        | some bound => do
          let type ← view.resolveWithin depth scope (name ++ "<" ++ generic.name ++ ">") bound
          return if type.vars.isEmpty then type else .unknown)
      (view.boundsOf expandable scope name generics) := by
  induction generics with
  | nil =>
    unfold boundsOf
    exact .pure []
  | cons generic rest ih =>
    obtain ⟨generic, bound, variance⟩ := generic
    unfold boundsOf
    rw [List.mapM_cons]
    cases bound with
    | none => exact (Follows.pure _).bind fun arg => (ih answers).bind_pure (arg :: ·)
    | some bound =>
      have others := ih fun placed declared => answers placed (List.mem_cons_of_mem _ declared)
      have first := answers ⟨scope, bound⟩ List.mem_cons_self (name ++ "<" ++ generic ++ ">")
        expandable leaves
      dsimp only
      rw [bind_assoc]
      exact first.bind fun type => (Follows.pure _).bind fun arg => others.bind_pure (arg :: ·)

/-- When every call that a call makes answers within a depth, the call answers one level deeper. -/
theorem answers_of_calls {depth : Nat} {call : Call}
    (answers : ∀ inner, view.Calls inner call → view.Answers depth inner) :
    view.Answers (depth + 1) call := by
  obtain ⟨busy, scope, signature⟩ := call
  intro path expandable leaves
  cases signature with
  | anything =>
    rw [resolveWithin, resolve]
    exact .pure _
  | anyBelow bound =>
    rw [resolveWithin, resolve]
    exact (answers _ .boundBelow path expandable leaves).bind_pure _
  | anyAbove bound =>
    rw [resolveWithin, resolve]
    exact (answers _ .boundAbove path expandable leaves).bind_pure _
  | array element =>
    rw [resolveWithin, resolve]
    exact (answers _ .element path expandable leaves).bind_pure _
  | named name args =>
    have arguments := follows_mapM leaves (fun arg given => answers _ (.argument given)) path
    rw [resolveWithin, resolve]
    dsimp only
    split
    · exact .pure _
    cases Builtin.ofName? name with
    | some builtin => exact arguments.bind_pure _
    | none =>
      cases admitted : view.admitted? name with
      | none =>
        dsimp only
        split
        · exact .refuse _
        · exact .pure _
      | some type =>
        refine (Follows.enqueue name).bind fun _ => ?_
        split
        · exact .refuse _
        split
        · exact arguments.bind_pure _
        next notGiven =>
        obtain rfl : args = [] := by simpa using notGiven
        have inModel := mem_names_of_admitted? admitted
        split
        · next listed =>
          have idle := (leaves.mem_iff name inModel).1 listed
          -- The bounds are answered with the name in the set, which is what entering it calls.
          have bounds := follows_boundsOf name (leaves.enter name)
            fun bound declared => answers _ (.raw admitted idle declared)
          exact (Follows.during_notMem idle bounds).bind_pure _
        · next unlisted =>
          have entered : name ∈ busy := by
            by_contra idle
            exact unlisted ((leaves.mem_iff name inModel).2 idle)
          exact ((Follows.pure _).during_mem entered).bind_pure _

/-- A call answers within every depth from its rank on. -/
theorem answers_of_rank_le {depth : Nat} : ∀ {call : Call}, view.rank call ≤ depth →
    view.Answers depth call := by
  induction depth with
  | zero => exact fun enough => absurd (rank_pos _) (Nat.not_lt.2 enough)
  | succ depth ih =>
    exact fun enough => answers_of_calls fun inner calls =>
      ih (Nat.le_of_lt_succ (Nat.lt_of_lt_of_le calls.rank_lt enough))

theorem Answers.type {depth : Nat} {placed : Placed} (answers : view.Answers depth ⟨[], placed⟩)
    (path : String) : Follows [] (view.resolveWithin depth placed.scope path placed.signature)
      (view.type placed.scope path placed.signature) :=
  answers path view.model.names leaves_nil

theorem follows_generics {depth : Nat} {scope : List String} {generics : List HostGeneric}
    (answers : ∀ bound ∈ boundsIn scope generics, view.Answers depth ⟨[], bound⟩) (path : String) :
    Follows [] (view.genericsWithin depth scope path generics)
      (view.generics scope path generics) := by
  refine Follows.mapM fun generic declared => ?_
  cases same : generic.bound with
  | none => exact (Follows.pure none).bind_pure _
  | some signature =>
    have listed : ⟨scope, signature⟩ ∈ boundsIn scope generics :=
      List.mem_map_of_mem (List.mem_filterMap.2 ⟨generic, declared, same⟩)
    exact (((answers _ listed).type _).map some).bind_pure _

theorem follows_parameters {depth : Nat} {scope : List String} {parameters : List HostParameter}
    (answers : ∀ parameter ∈ parameters, view.Answers depth ⟨[], ⟨scope, parameter.type⟩⟩)
    (path : String) :
    Follows [] (view.parametersWithin depth scope path parameters)
      (view.parameters scope path parameters) :=
  .mapM fun parameter listed => ((answers parameter listed).type _).bind_pure _

theorem follows_member {depth : Nat} {scope : List String} {member : HostMember}
    (answers : ∀ placed ∈ member.placed scope, view.Answers depth ⟨[], placed⟩) (owner : String) :
    Follows [] (view.memberWithin depth scope owner member) (view.member scope owner member) := by
  have here : ∀ signature ∈ member.signatures,
      view.Answers depth ⟨[], ⟨member.scopeIn scope, signature⟩⟩ :=
    fun signature listed => answers _ (List.mem_map_of_mem listed)
  unfold memberWithin HostView.member
  unfold HostMember.signatures HostMember.scopeIn at *
  by_cases isMethod : member.isMethod = true
  · simp only [isMethod, if_true] at here ⊢
    have bounds : ∀ bound ∈ boundsIn (scope ++ member.generics.map (·.name)) member.generics,
        view.Answers depth ⟨[], bound⟩ := by
      intro bound declared
      obtain ⟨signature, listed, rfl⟩ := List.mem_map.1 declared
      exact here signature (by simp [listed])
    refine (follows_generics bounds _).bind fun generics => ?_
    refine (follows_parameters (fun parameter listed => here _ ?_) _).bind fun parameters => ?_
    · simp only [List.mem_append, List.mem_map]
      exact .inl (.inr ⟨parameter, listed, rfl⟩)
    · rw [pure_bind, pure_bind]
      exact ((here member.type (by simp)).type _).bind_pure _
  · simp only [isMethod, Bool.false_eq_true, if_false, pure_bind] at here ⊢
    exact ((here member.type (by simp)).type _).bind_pure _

theorem follows_variants (view : HostView) (owner : String) (variants : List String) :
    Follows [] (view.variantsWithin owner variants) (view.variants owner variants) := by
  induction variants with
  | nil => exact .pure []
  | cons variant rest ih =>
    unfold variantsWithin HostView.variants
    split
    · exact .refuse _
    cases view.admitted? variant with
    | none => exact ih
    | some type => exact (Follows.enqueue variant).bind fun _ => ih.bind_pure (variant :: ·)

/-- Reading a host type loses nothing when each of its signatures is answered. -/
theorem follows_node {depth : Nat} {type : HostType}
    (answers : ∀ placed ∈ view.placed type, view.Answers depth ⟨[], placed⟩) :
    Follows [] (view.nodeWithin depth type) (view.node type) := by
  unfold nodeWithin HostView.node HostView.nested
  simp only [placed, List.mem_append, List.mem_flatMap, List.mem_map] at answers
  refine (follows_generics (fun bound declared => answers bound (.inl (.inl declared))) _).bind
    fun generics => ?_
  refine (Follows.mapM fun supertype listed => ?_).bind fun supertypes => ?_
  · exact (answers ⟨_, supertype⟩ (.inl (.inr ⟨supertype, listed, rfl⟩))).type _
  refine (Follows.mapM fun member listed => follows_member (fun placed inside => ?_) _).bind
    fun members => ?_
  · exact answers placed (.inr ⟨member, listed, inside⟩)
  rw [bind_assoc]
  refine (Follows.enqueueAll (view.innerNames type)).bind fun _ => ?_
  rw [pure_bind]
  have variants := follows_variants view type.name type.variants
  cases (Name.outer? type.name).filter view.model.contains with
  | none => exact variants.bind_pure _
  | some outer => exact (Follows.enqueue outer).bind fun _ => variants.bind_pure _

end HostView

end TypeBridge
