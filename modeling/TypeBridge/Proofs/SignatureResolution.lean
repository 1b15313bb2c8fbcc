import Mathlib.Data.List.Forall2
import TypeBridge.Proofs.ReadingMentions

/-!
# Resolving signatures with a shared set

A reference without arguments takes the bounds of the parameters in their place, and these may hold
such references again.  One set, shared by everything that is resolved, keeps the types whose bounds
are being resolved; a type in it gives unknown arguments.

The relation of this file says what one signature after another does to that set.  Every run leaves
the set as it found it, so it agrees with resolving each signature on its own.
-/

namespace TypeBridge

/-- A signature with the type variables of the place where it stands. -/
structure Placed where
  scope : List String
  signature : Signature

namespace HostView

/-- The bounds of some type parameters, in their order. -/
def boundsIn (scope : List String) (generics : List HostGeneric) : List Placed :=
  (generics.filterMap (·.bound)).map (⟨scope, ·⟩)

/-- The arguments that resolved bounds stand in for, one for each parameter. -/
def argumentsOf : List HostGeneric → List ResolvedType → List ResolvedType
  | [], _ => []
  | ⟨_, none, _⟩ :: rest, types => .unknown :: argumentsOf rest types
  | ⟨_, some _, _⟩ :: rest, type :: types =>
    (if type.vars.isEmpty then type else .unknown) :: argumentsOf rest types
  | _ :: rest, [] => .unknown :: argumentsOf rest []

theorem length_argumentsOf (generics : List HostGeneric) (types : List ResolvedType) :
    (argumentsOf generics types).length = generics.length := by
  induction generics, types using argumentsOf.induct with
  | case1 => rfl
  | case2 types _ _ rest ih => simpa [argumentsOf] using ih
  | case3 _ _ _ rest type types ih => simpa [argumentsOf] using ih
  | case4 generic rest notFree ih =>
    obtain ⟨_, bound, _⟩ := generic
    cases bound with
    | none => simpa [argumentsOf] using ih
    | some bound => simpa [argumentsOf] using ih

/-- What stands in for a missing argument is unknown or a bound that mentions no variable. -/
theorem mem_argumentsOf {generics : List HostGeneric} {types : List ResolvedType}
    {arg : ResolvedType} (member : arg ∈ argumentsOf generics types) :
    arg = .unknown ∨ arg ∈ types ∧ arg.vars = [] := by
  induction generics generalizing types with
  | nil => simp [argumentsOf] at member
  | cons generic rest ih =>
    obtain ⟨name, bound, variance⟩ := generic
    cases bound with
    | none =>
      rcases List.mem_cons.1 member with unknown | later
      · exact Or.inl unknown
      · exact ih later
    | some bound =>
      cases types with
      | nil =>
        rcases List.mem_cons.1 member with unknown | later
        · exact Or.inl unknown
        · exact ih later
      | cons type types =>
        rcases List.mem_cons.1 member with here | later
        · by_cases closed : type.vars = []
          · rw [if_pos (by simp [closed])] at here
            exact Or.inr ⟨here ▸ List.mem_cons_self, here ▸ closed⟩
          · rw [if_neg (by simpa using closed)] at here
            exact Or.inl here
        · exact (ih later).imp id fun inside => ⟨List.mem_cons_of_mem _ inside.1, inside.2⟩

/-- Placed signatures are resolved one after another, from a set of types whose bounds are being
resolved.  They make types, mention names, and leave a set. -/
inductive Resolves (view : HostView) : List String → List Placed → List ResolvedType →
    List String → List String → Prop
  | nil {busy : List String} : Resolves view busy [] [] [] busy
  | anything {busy scope mentioned after : List String} {rest : List Placed}
      {types : List ResolvedType} (others : Resolves view busy rest types mentioned after) :
      Resolves view busy (⟨scope, .anything⟩ :: rest) (.anything :: types) mentioned after
  | anyBelow {busy scope mentioned after : List String} {bound : Signature} {rest : List Placed}
      {type : ResolvedType} {types : List ResolvedType}
      (inner : Resolves view busy (⟨scope, bound⟩ :: rest) (type :: types) mentioned after) :
      Resolves view busy (⟨scope, .anyBelow bound⟩ :: rest) (.anyBelow type :: types) mentioned
        after
  | anyAbove {busy scope mentioned after : List String} {bound : Signature} {rest : List Placed}
      {type : ResolvedType} {types : List ResolvedType}
      (inner : Resolves view busy (⟨scope, bound⟩ :: rest) (type :: types) mentioned after) :
      Resolves view busy (⟨scope, .anyAbove bound⟩ :: rest) (.anyAbove type :: types) mentioned
        after
  | array {busy scope mentioned after : List String} {element : Signature} {rest : List Placed}
      {type : ResolvedType} {types : List ResolvedType}
      (inner : Resolves view busy (⟨scope, element⟩ :: rest) (type :: types) mentioned after) :
      Resolves view busy (⟨scope, .array element⟩ :: rest) (.array type :: types) mentioned after
  /-- A name in scope without arguments is a type variable. -/
  | var {busy scope mentioned after : List String} {name : String} {rest : List Placed}
      {types : List ResolvedType} (inScope : name ∈ scope)
      (others : Resolves view busy rest types mentioned after) :
      Resolves view busy (⟨scope, .named name []⟩ :: rest) (.var name :: types) mentioned after
  | builtin {busy scope middle mentioned further after : List String} {name : String}
      {args : List Signature} {builtin : Builtin} {rest : List Placed}
      {inner types : List ResolvedType} (free : args = [] → name ∉ scope)
      (known : Builtin.ofName? name = some builtin)
      (arguments : Resolves view busy (args.map (⟨scope, ·⟩)) inner mentioned middle)
      (others : Resolves view middle rest types further after) :
      Resolves view busy (⟨scope, .named name args⟩ :: rest) (builtin.apply inner :: types)
        (mentioned ++ further) after
  /-- A type that may not be declared is unknown, unless the model should have had it. -/
  | hidden {busy scope mentioned after : List String} {name : String} {args : List Signature}
      {rest : List Placed} {types : List ResolvedType} (free : args = [] → name ∉ scope)
      (foreign : Builtin.ofName? name = none) (excluded : view.admitted? name = none)
      (dispensable : (view.allow.contains name && !view.model.contains name) = false)
      (others : Resolves view busy rest types mentioned after) :
      Resolves view busy (⟨scope, .named name args⟩ :: rest) (.unknown :: types) mentioned after
  | applied {busy scope middle mentioned further after : List String} {name : String}
      {type : HostType} {args : List Signature} {rest : List Placed}
      {inner types : List ResolvedType} (foreign : Builtin.ofName? name = none)
      (admitted : view.admitted? name = some type) (given : args ≠ [])
      (arity : args.length = type.generics.length)
      (arguments : Resolves view busy (args.map (⟨scope, ·⟩)) inner mentioned middle)
      (others : Resolves view middle rest types further after) :
      Resolves view busy (⟨scope, .named name args⟩ :: rest) (.named name inner :: types)
        (name :: mentioned ++ further) after
  /-- Without arguments the bounds are resolved while the type is in the set. -/
  | raw {busy scope middle mentioned further after : List String} {name : String}
      {type : HostType} {rest : List Placed} {inner types : List ResolvedType}
      (free : name ∉ scope) (foreign : Builtin.ofName? name = none)
      (admitted : view.admitted? name = some type) (idle : name ∉ busy)
      (bounds : Resolves view (name :: busy)
        (boundsIn (view.varsIn name type.generics) type.generics) inner mentioned middle)
      (others : Resolves view (middle.erase name) rest types further after) :
      Resolves view busy (⟨scope, .named name []⟩ :: rest)
        (.named name (argumentsOf type.generics inner) :: types) (name :: mentioned ++ further) after
  /-- A type in the set is not entered again. -/
  | again {busy scope mentioned after : List String} {name : String} {type : HostType}
      {rest : List Placed} {types : List ResolvedType}
      (free : name ∉ scope) (foreign : Builtin.ofName? name = none)
      (admitted : view.admitted? name = some type) (entered : name ∈ busy)
      (others : Resolves view busy rest types mentioned after) :
      Resolves view busy (⟨scope, .named name []⟩ :: rest)
        (.named name (List.replicate type.generics.length .unknown) :: types) (name :: mentioned)
        after

/-- The types that may still be entered are those of the model outside of the set. -/
structure Leaves (view : HostView) (busy expandable : List String) : Prop where
  distinct : expandable.Nodup
  mem_iff : ∀ name ∈ view.model.names, name ∈ expandable ↔ name ∉ busy

variable {view : HostView}

theorem leaves_nil : view.Leaves [] view.model.names where
  distinct := view.model.distinct
  mem_iff := by simp

theorem Leaves.enter {busy expandable : List String} (leaves : view.Leaves busy expandable)
    (name : String) : view.Leaves (name :: busy) (expandable.erase name) where
  distinct := leaves.distinct.erase name
  mem_iff := by
    intro other known
    rw [leaves.distinct.mem_erase_iff, leaves.mem_iff other known, List.mem_cons, not_or]

theorem Admits.mem_names {name : String} (admits : view.Admits name) :
    name ∈ view.model.names := by
  obtain ⟨type, found, -⟩ := admits
  exact HostModel.mem_names_of_get? found

theorem mem_names_of_admitted? {name : String} {type : HostType}
    (found : view.admitted? name = some type) : name ∈ view.model.names :=
  (admits_of_admitted? found).mem_names

/-- Every run leaves the set as it found it. -/
theorem Resolves.after_eq {busy mentioned after : List String} {placed : List Placed}
    {types : List ResolvedType} (resolves : view.Resolves busy placed types mentioned after) :
    after = busy := by
  induction resolves with
  | nil => rfl
  | anything _ ih | anyBelow _ ih | anyAbove _ ih | array _ ih => exact ih
  | var _ _ ih => exact ih
  | builtin _ _ _ _ ihArguments ih => exact ih.trans ihArguments
  | hidden _ _ _ _ _ ih => exact ih
  | applied _ _ _ _ _ _ ihArguments ih => exact ih.trans ihArguments
  | raw _ _ _ _ _ _ ihBounds ih =>
    rw [ihBounds, List.erase_cons_head] at ih
    exact ih
  | again _ _ _ _ _ ih => exact ih

theorem Resolves.append {busy mentioned middle : List String} {placed : List Placed}
    {types : List ResolvedType} (first : view.Resolves busy placed types mentioned middle)
    {further after : List String} {rest : List Placed} {others : List ResolvedType}
    (second : view.Resolves middle rest others further after) :
    view.Resolves busy (placed ++ rest) (types ++ others) (mentioned ++ further) after := by
  induction first with
  | nil => exact second
  | anything _ ih => exact .anything (ih second)
  | anyBelow _ ih => exact .anyBelow (ih second)
  | anyAbove _ ih => exact .anyAbove (ih second)
  | array _ ih => exact .array (ih second)
  | var inScope _ ih => exact .var inScope (ih second)
  | builtin free known arguments _ _ ih =>
    rw [List.append_assoc]
    exact .builtin free known arguments (ih second)
  | hidden free foreign excluded dispensable _ ih =>
    exact .hidden free foreign excluded dispensable (ih second)
  | applied foreign admitted given arity arguments _ _ ih =>
    rw [List.append_assoc]
    exact .applied foreign admitted given arity arguments (ih second)
  | raw free foreign admitted idle bounds _ _ ih =>
    rw [List.append_assoc]
    exact .raw free foreign admitted idle bounds (ih second)
  | again free foreign admitted entered _ ih =>
    exact .again free foreign admitted entered (ih second)

open Reading

theorem mention_yields (name : String) :
    (mention name).Yields fun _ mentioned => mentioned = [name] :=
  yields_mention rfl

mutual

/-- Resolving a signature is a run from every set that leaves the expandable types. -/
theorem resolve_resolves (view : HostView) (expandable scope : List String) (path : String) :
    ∀ signature, (view.resolve expandable scope path signature).Yields fun type mentioned =>
      ∀ busy, view.Leaves busy expandable →
        view.Resolves busy [⟨scope, signature⟩] [type] mentioned busy
  | .anything => by
    unfold resolve
    exact .pure fun busy _ => .anything .nil
  | .anyBelow bound => by
    unfold resolve
    exact (view.resolve_resolves expandable scope path bound).bind_pure
      fun _ _ resolves busy leaves => .anyBelow (resolves busy leaves)
  | .anyAbove bound => by
    unfold resolve
    exact (view.resolve_resolves expandable scope path bound).bind_pure
      fun _ _ resolves busy leaves => .anyAbove (resolves busy leaves)
  | .array element => by
    unfold resolve
    exact (view.resolve_resolves expandable scope path element).bind_pure
      fun _ _ resolves busy leaves => .array (resolves busy leaves)
  | .named name args => by
    unfold resolve
    split
    · next inScope =>
      simp only [Bool.and_eq_true, List.isEmpty_iff, List.contains_eq_mem, decide_eq_true_eq]
        at inScope
      obtain ⟨rfl, inScope⟩ := inScope
      exact .pure fun busy _ => .var inScope .nil
    next notVar =>
    have free : args = [] → name ∉ scope := by
      rintro rfl inScope
      simp [inScope] at notVar
    cases known : Builtin.ofName? name with
    | some builtin =>
      refine (view.resolveAll_resolves expandable scope path args).bind_pure ?_
      intro types mentioned resolves busy leaves
      rw [← List.append_nil mentioned]
      exact .builtin free known (resolves busy leaves) .nil
    | none =>
      cases found : view.admitted? name with
      | none =>
        dsimp only
        split
        · exact yields_refuse
        · next dispensable =>
          exact .pure fun busy _ => .hidden free known found (by simpa using dispensable) .nil
      | some type =>
        refine (mention_yields name).bind ?_
        rintro _ _ rfl
        split
        · exact yields_refuse
        next arity =>
        split
        · next given =>
          have nonempty : args ≠ [] := by simpa using given
          have sameLength : args.length = type.generics.length := by simpa [nonempty] using arity
          refine (view.resolveAll_resolves expandable scope path args).bind_pure ?_
          intro types mentioned resolves busy leaves
          rw [← List.append_nil ([name] ++ mentioned)]
          exact .applied known found nonempty sameLength (resolves busy leaves) .nil
        next notGiven =>
        obtain rfl : args = [] := by simpa using notGiven
        split
        · next listed =>
          refine (view.boundsOf_resolves (expandable.erase name)
            (view.varsIn name type.generics) name type.generics).bind_pure ?_
          rintro _ mentioned ⟨inner, rfl, resolves⟩ busy leaves
          have idle := (leaves.mem_iff name (mem_names_of_admitted? found)).1 listed
          have bounds := resolves (name :: busy) (leaves.enter name)
          rw [← List.append_nil ([name] ++ mentioned)]
          refine .raw (free rfl) known found idle bounds ?_
          rw [List.erase_cons_head]
          exact .nil
        · next unlisted =>
          refine .pure fun busy leaves => ?_
          have entered : name ∈ busy := by
            by_contra idle
            exact unlisted ((leaves.mem_iff name (mem_names_of_admitted? found)).2 idle)
          exact .again (free rfl) known found entered .nil
termination_by signature => (expandable.length, sizeOf signature)
decreasing_by
  · exact Prod.Lex.right _ (by simp)
  · exact Prod.Lex.right _ (by simp)
  · exact Prod.Lex.right _ (by simp)
  · next listed =>
    exact Prod.Lex.left _ _ (by
      rw [List.length_erase_of_mem listed]
      have := List.length_pos_of_mem listed
      omega)
  · exact Prod.Lex.right _ (by rw [Signature.named.sizeOf_spec]; omega)
  · exact Prod.Lex.right _ (by rw [Signature.named.sizeOf_spec]; omega)

theorem resolveAll_resolves (view : HostView) (expandable scope : List String) (path : String) :
    ∀ signatures, (view.resolveAll expandable scope path signatures).Yields
      fun types mentioned => ∀ busy, view.Leaves busy expandable →
        view.Resolves busy (signatures.map (⟨scope, ·⟩)) types mentioned busy
  | [] => by
    unfold resolveAll
    exact .pure fun busy _ => .nil
  | signature :: rest => by
    unfold resolveAll
    refine (view.resolve_resolves expandable scope path signature).bind ?_
    intro type mentioned first
    exact (view.resolveAll_resolves expandable scope path rest).bind_pure
      fun _ _ others busy leaves => (first busy leaves).append (others busy leaves)
termination_by signatures => (expandable.length, sizeOf signatures)
decreasing_by
  · exact Prod.Lex.right _ (by rw [List.cons.sizeOf_spec]; omega)
  · exact Prod.Lex.right _ (by rw [List.cons.sizeOf_spec]; omega)

theorem boundsOf_resolves (view : HostView) (expandable scope : List String) (name : String) :
    ∀ generics, (view.boundsOf expandable scope name generics).Yields
      fun types mentioned => ∃ inner, types = argumentsOf generics inner ∧
        ∀ busy, view.Leaves busy expandable →
          view.Resolves busy (boundsIn scope generics) inner mentioned busy
  | [] => by
    unfold boundsOf
    exact .pure ⟨[], rfl, fun busy _ => .nil⟩
  | ⟨generic, none, variance⟩ :: rest => by
    unfold boundsOf
    dsimp only
    rw [pure_bind]
    refine (view.boundsOf_resolves expandable scope name rest).bind_pure ?_
    rintro _ mentioned ⟨inner, rfl, others⟩
    exact ⟨inner, rfl, others⟩
  | ⟨generic, some signature, variance⟩ :: rest => by
    unfold boundsOf
    dsimp only
    refine (view.resolve_resolves expandable scope _ signature).bind ?_
    intro type mentioned first
    rw [pure_bind]
    refine (view.boundsOf_resolves expandable scope name rest).bind_pure ?_
    rintro _ further ⟨inner, rfl, others⟩
    exact ⟨type :: inner, rfl, fun busy leaves => (first busy leaves).append (others busy leaves)⟩
termination_by generics => (expandable.length, sizeOf generics)
decreasing_by
  · exact Prod.Lex.right _ (by rw [List.cons.sizeOf_spec]; omega)
  · exact Prod.Lex.right _ (by
      rw [List.cons.sizeOf_spec, HostGeneric.mk.sizeOf_spec, Option.some.sizeOf_spec]
      omega)
  · exact Prod.Lex.right _ (by rw [List.cons.sizeOf_spec]; omega)

end

/-- Resolving a signature on its own, wherever it stands, makes a type and mentions names. -/
def Gives (view : HostView) (expandable : List String) (placed : Placed)
    (outcome : ResolvedType × List String) : Prop :=
  ∀ path, view.resolve expandable placed.scope path placed.signature =
    result outcome.1 outcome.2

theorem resolveAll_eq {expandable scope : List String} {signatures : List Signature}
    {outcomes : List (ResolvedType × List String)}
    (each : List.Forall₂ (view.Gives expandable) (signatures.map (⟨scope, ·⟩)) outcomes)
    (path : String) : view.resolveAll expandable scope path signatures =
      result (outcomes.map (·.1)) (outcomes.flatMap (·.2)) := by
  induction signatures generalizing outcomes with
  | nil =>
    cases each
    unfold resolveAll
    rfl
  | cons signature rest ih =>
    cases each with
    | cons first others =>
      unfold resolveAll
      refine bind_eq_result_iff.2 ⟨_, _, _, first path, ?_, rfl⟩
      exact bind_eq_result_iff.2 ⟨_, _, _, ih others, rfl, (List.append_nil _).symm⟩

theorem boundsOf_eq {expandable scope : List String} {name : String} {generics : List HostGeneric}
    {outcomes : List (ResolvedType × List String)}
    (each : List.Forall₂ (view.Gives expandable) (boundsIn scope generics) outcomes) :
    view.boundsOf expandable scope name generics =
      result (argumentsOf generics (outcomes.map (·.1))) (outcomes.flatMap (·.2)) := by
  induction generics generalizing outcomes with
  | nil =>
    cases each
    unfold boundsOf
    rfl
  | cons generic rest ih =>
    obtain ⟨generic, bound, variance⟩ := generic
    cases bound with
    | none =>
      unfold boundsOf
      dsimp only
      rw [pure_bind]
      exact bind_eq_result_iff.2 ⟨_, _, _, ih each, rfl, (List.append_nil _).symm⟩
    | some signature =>
      cases each with
      | cons first others =>
        unfold boundsOf
        dsimp only
        refine bind_eq_result_iff.2 ⟨_, _, _, first _, ?_, rfl⟩
        rw [pure_bind]
        exact bind_eq_result_iff.2 ⟨_, _, _, ih others, rfl, (List.append_nil _).symm⟩

theorem exists_outcomes_cons {expandable : List String} {placed : Placed} {rest : List Placed}
    {type : ResolvedType} {types : List ResolvedType} {mentioned further : List String}
    (first : view.Gives expandable placed (type, mentioned))
    (others : ∃ outcomes : List (ResolvedType × List String), outcomes.map (·.1) = types ∧
      outcomes.flatMap (·.2) = further ∧ List.Forall₂ (view.Gives expandable) rest outcomes) :
    ∃ outcomes : List (ResolvedType × List String), outcomes.map (·.1) = type :: types ∧
      outcomes.flatMap (·.2) = mentioned ++ further ∧
        List.Forall₂ (view.Gives expandable) (placed :: rest) outcomes := by
  obtain ⟨outcomes, rfl, rfl, each⟩ := others
  exact ⟨(type, mentioned) :: outcomes, rfl, rfl, .cons first each⟩

/-- Signatures that are resolved one after another are resolved each on its own. -/
theorem Resolves.gives {busy mentioned after : List String} {placed : List Placed}
    {types : List ResolvedType} (resolves : view.Resolves busy placed types mentioned after)
    {expandable : List String} (leaves : view.Leaves busy expandable) :
    ∃ outcomes : List (ResolvedType × List String), outcomes.map (·.1) = types ∧
      outcomes.flatMap (·.2) = mentioned ∧
        List.Forall₂ (view.Gives expandable) placed outcomes := by
  induction resolves generalizing expandable with
  | nil => exact ⟨[], rfl, rfl, .nil⟩
  | @anything _ scope _ _ _ _ _ ih =>
    have first : view.Gives expandable ⟨scope, .anything⟩ (.anything, []) := by
      intro path
      rw [resolve]
      rfl
    exact exists_outcomes_cons first (ih leaves)
  | anyBelow _ ih | anyAbove _ ih | array _ ih =>
    obtain ⟨outcomes, types, mentions, all⟩ := ih leaves
    cases all with
    | @cons _ outcome _ outcomes first others =>
      obtain ⟨rfl, rfl⟩ := List.cons.inj types
      rw [← mentions]
      refine exists_outcomes_cons (fun path => ?_) ⟨outcomes, rfl, rfl, others⟩
      rw [resolve]
      exact bind_eq_result_iff.2 ⟨_, _, _, first path, rfl, (List.append_nil _).symm⟩
  | @var _ scope _ _ name _ _ inScope _ ih =>
    have first : view.Gives expandable ⟨scope, .named name []⟩ (.var name, []) := by
      intro path
      rw [resolve, if_pos (by simpa using inScope)]
      rfl
    exact exists_outcomes_cons first (ih leaves)
  | builtin free known arguments others ihArguments ih =>
    rw [arguments.after_eq] at ih
    obtain ⟨outcomes, rfl, rfl, each⟩ := ihArguments leaves
    refine exists_outcomes_cons (fun path => ?_) (ih leaves)
    rw [resolve, if_neg (by simpa using free), known]
    exact bind_eq_result_iff.2 ⟨_, _, _, resolveAll_eq each path, rfl, (List.append_nil _).symm⟩
  | @hidden _ scope _ _ name args _ _ free foreign excluded dispensable _ ih =>
    have first : view.Gives expandable ⟨scope, .named name args⟩ (.unknown, []) := by
      intro path
      rw [resolve, if_neg (by simpa using free), foreign]
      simp only [excluded, dispensable]
      rfl
    exact exists_outcomes_cons first (ih leaves)
  | applied foreign admitted given arity arguments _ ihArguments ih =>
    rw [arguments.after_eq] at ih
    obtain ⟨outcomes, rfl, rfl, each⟩ := ihArguments leaves
    refine exists_outcomes_cons (fun path => ?_) (ih leaves)
    rw [resolve, if_neg (by simp [given]), foreign]
    simp only [admitted]
    refine bind_eq_result_iff.2 ⟨(), [_], outcomes.flatMap (·.2), rfl, ?_, rfl⟩
    rw [if_neg (by simp [arity]), if_pos (by simpa using given)]
    exact bind_eq_result_iff.2 ⟨_, _, _, resolveAll_eq each path, rfl, (List.append_nil _).symm⟩
  | raw free foreign admitted idle bounds _ ihBounds ih =>
    rw [bounds.after_eq, List.erase_cons_head] at ih
    obtain ⟨outcomes, rfl, rfl, each⟩ := ihBounds (leaves.enter _)
    refine exists_outcomes_cons (fun path => ?_) (ih leaves)
    have listed := (leaves.mem_iff _ (mem_names_of_admitted? admitted)).2 idle
    rw [resolve, if_neg (by simpa using free), foreign]
    simp only [admitted]
    refine bind_eq_result_iff.2 ⟨(), [_], outcomes.flatMap (·.2), rfl, ?_, rfl⟩
    rw [if_neg (by simp), if_neg (by simp), dif_pos listed]
    exact bind_eq_result_iff.2 ⟨_, _, _, boundsOf_eq each, rfl, (List.append_nil _).symm⟩
  | @again _ scope _ _ name type _ _ free foreign admitted entered _ ih =>
    have unlisted := mt (leaves.mem_iff _ (mem_names_of_admitted? admitted)).1 (not_not.2 entered)
    have first : view.Gives expandable ⟨scope, .named name []⟩
        (.named name (.replicate type.generics.length .unknown), [name]) := by
      intro path
      rw [resolve, if_neg (by simpa using free), foreign]
      simp only [admitted]
      refine bind_eq_result_iff.2 ⟨(), [_], [], rfl, ?_, rfl⟩
      rw [if_neg (by simp), if_neg (by simp), dif_neg unlisted]
      rfl
    exact exists_outcomes_cons first (ih leaves)

/-- Resolving a signature is a run of it alone that begins and ends with no type in the set. -/
theorem type_eq_result_iff {scope : List String} {path : String} {signature : Signature}
    {type : ResolvedType} {mentioned : List String} :
    view.type scope path signature = result type mentioned ↔
      view.Resolves [] [⟨scope, signature⟩] [type] mentioned [] := by
  constructor
  · intro reads
    exact view.resolve_resolves view.model.names scope path signature type mentioned reads []
      leaves_nil
  · intro resolves
    obtain ⟨outcomes, types, rfl, each⟩ := resolves.gives leaves_nil
    obtain ⟨outcome, rfl, rfl⟩ := List.map_eq_singleton_iff.1 types
    cases each with
    | cons first _ =>
      rw [List.flatMap_cons, List.flatMap_nil, List.append_nil]
      exact first path

end HostView

end TypeBridge
