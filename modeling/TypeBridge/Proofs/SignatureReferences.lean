import Mathlib.Logic.Relation
import TypeBridge.Proofs.Outcomes
import TypeBridge.Proofs.SpelledTypes

/-!
# The references in the spelling of a signature

Every reference in the spelling of a signature is made by a signature inside of it, or inside of the
bounds that stand in for missing arguments, unless a type variable brings it along.  What it gives
for a parameter whose bound says something is the spelling of an argument, or of the bound where the
argument is missing; an unknown type among these has a reason.
-/

namespace TypeBridge

theorem exists_getElem?_of_forall₂ {α β : Type} {related : α → β → Prop} {all : List α}
    {others : List β} (each : List.Forall₂ related all others) {index : Nat} {b : β}
    (found : others[index]? = some b) : ∃ a, all[index]? = some a ∧ related a b := by
  induction each generalizing index with
  | nil => cases found
  | cons here _ ih =>
    cases index with
    | zero =>
      obtain rfl := Option.some.inj found
      exact ⟨_, rfl, here⟩
    | succ index => exact ih found

namespace HostView

open Relation

variable {view : HostView}

/-- A signature on the way into others. -/
structure Visit where
  /-- The types whose bounds are being resolved. -/
  busy : List String
  scope : List String
  /-- What the type variables in scope stand for. -/
  bindings : Bindings
  signature : Signature

/-- Resolving one signature resolves another, and the result shows in its spelling: what is inside a
wildcard, an array or arguments, or a bound that stands in for a missing argument. -/
inductive Enters (view : HostView) : Visit → Visit → Prop
  | bound {busy scope : List String} {bindings : Bindings} {bound : Signature} :
      Enters view ⟨busy, scope, bindings, .anyBelow bound⟩ ⟨busy, scope, bindings, bound⟩
  | element {busy scope : List String} {bindings : Bindings} {element : Signature} :
      Enters view ⟨busy, scope, bindings, .array element⟩ ⟨busy, scope, bindings, element⟩
  | argument {busy scope : List String} {bindings : Bindings} {name : String}
      {args : List Signature} {arg : Signature}
      (shown : Builtin.ofName? name ≠ none ∨ view.admitted? name ≠ none) (listed : arg ∈ args) :
      Enters view ⟨busy, scope, bindings, .named name args⟩ ⟨busy, scope, bindings, arg⟩
  /-- A bound is seen from the scope of its own type. -/
  | standIn {busy scope : List String} {bindings : Bindings} {name : String} {type : HostType}
      {placed : Placed} (free : name ∉ scope) (foreign : Builtin.ofName? name = none)
      (admitted : view.admitted? name = some type) (idle : name ∉ busy)
      (listed : placed ∈ boundsIn (view.varsIn name type.generics) type.generics) :
      Enters view ⟨busy, scope, bindings, .named name []⟩
        ⟨name :: busy, placed.scope, [], placed.signature⟩

/-- The spelling of a signature. -/
def Spells (view : HostView) (visit : Visit) (spelling : Spelling) : Prop :=
  ∃ type met, view.Resolves visit.busy [⟨visit.scope, visit.signature⟩] [type] met visit.busy ∧
    type.spellIn visit.bindings = spelling

/-- A signature is a reference with some arguments, and is spelled as one. -/
structure Applies (view : HostView) (visit : Visit) (given : List Signature)
    (application : Application) : Prop where
  signature : visit.signature = .named application.name given
  free : given = [] → application.name ∉ visit.scope
  spells : view.Spells visit (.declared application.name application.args)

/-- A reference is made by a signature that another one leads to. -/
def Makes (view : HostView) (start : Visit) (application : Application) : Prop :=
  ∃ visit given, ReflTransGen view.Enters start visit ∧ view.Applies visit given application

theorem Makes.of_enters {start next : Visit} {application : Application}
    (enters : view.Enters start next) (makes : view.Makes next application) :
    view.Makes start application := by
  obtain ⟨visit, given, leads, applies⟩ := makes
  exact ⟨visit, given, leads.head enters, applies⟩

end HostView

/-- A reference comes with a type that some variable stands for. -/
def Bindings.Carries (bindings : Bindings) (application : Application) : Prop :=
  ∃ pair ∈ bindings, application ∈ pair.2.spell.applications

namespace HostView

variable {view : HostView}

def Accounts (view : HostView) (busy : List String) (placed : Placed) (type : ResolvedType) :
    Prop :=
  ∀ bindings : Bindings, ∀ application ∈ (type.spellIn bindings).applications,
    bindings.Carries application ∨
      view.Makes ⟨busy, placed.scope, bindings, placed.signature⟩ application

theorem Accounts.of_applications_eq_nil {busy : List String} {placed : Placed}
    {type : ResolvedType} (none : ∀ bindings, (type.spellIn bindings).applications = []) :
    view.Accounts busy placed type := by
  intro bindings application member
  rw [none] at member
  cases member

theorem Accounts.var (busy : List String) (placed : Placed) (name : String) :
    view.Accounts busy placed (.var name) := by
  intro bindings application member
  rw [ResolvedType.spellIn_var] at member
  cases replaced : bindings.lookup name with
  | none => simp [replaced, Spelling.applications] at member
  | some type =>
    rw [replaced] at member
    obtain ⟨front, back, rfl, -⟩ := List.lookup_eq_some_iff.1 replaced
    exact .inl ⟨(name, type), by simp, member⟩

/-- Every reference in the spelling of a signature is accounted for. -/
theorem Resolves.accounts {busy mentioned after : List String} {placed : List Placed}
    {types : List ResolvedType} (resolves : view.Resolves busy placed types mentioned after) :
    List.Forall₂ (view.Accounts busy) placed types := by
  -- a reference in an argument is accounted for by the signature of that argument
  have argument : ∀ {busy scope : List String} {name : String} {args : List Signature}
      {inner : List ResolvedType}, Builtin.ofName? name ≠ none ∨ view.admitted? name ≠ none →
      List.Forall₂ (view.Accounts busy) (args.map (Placed.mk scope)) inner →
      ∀ {bindings : Bindings} {arg : ResolvedType}, arg ∈ inner →
        ∀ application ∈ (arg.spellIn bindings).applications, bindings.Carries application ∨
          view.Makes ⟨busy, scope, bindings, .named name args⟩ application := by
    intro busy scope name args inner shown each bindings arg listed application member
    obtain ⟨signature, given, accounts⟩ :=
      exists_of_forall₂ (List.forall₂_map_left_iff.1 each) listed
    exact (accounts bindings application member).imp_right (.of_enters (.argument shown given))
  induction resolves with
  | nil => exact .nil
  | anything _ ih => exact .cons (.of_applications_eq_nil fun _ => rfl) ih
  | anyBelow _ ih =>
    cases ih with
    | cons first others =>
      exact .cons (fun bindings application member =>
        (first bindings application member).imp_right (.of_enters .bound)) others
  | anyAbove _ ih =>
    cases ih with
    | cons first others => exact .cons (.of_applications_eq_nil fun _ => rfl) others
  | array _ ih =>
    cases ih with
    | cons first others =>
      exact .cons (fun bindings application member =>
        (first bindings application member).imp_right (.of_enters .element)) others
  | var _ _ ih => exact .cons (.var _ _ _) ih
  | builtin _ known arguments _ ihArguments ih =>
    obtain rfl := arguments.after_eq
    refine .cons (fun bindings application member => ?_) ih
    obtain ⟨arg, listed, member⟩ := ResolvedType.exists_of_mem_applications_apply bindings member
    exact argument (.inl (by simp [known])) ihArguments listed application member
  | hidden _ _ _ _ _ ih => exact .cons (.of_applications_eq_nil fun _ => rfl) ih
  | applied foreign admitted given arity arguments _ ihArguments ih =>
    obtain rfl := arguments.after_eq
    refine .cons (fun bindings application member => ?_) ih
    rcases ResolvedType.mem_applications_named_iff.1 member with rfl | ⟨arg, listed, member⟩
    · exact .inr ⟨_, _, .refl, rfl, fun none => absurd none given, _, _,
        .applied foreign admitted given arity arguments .nil, ResolvedType.spellIn_named ..⟩
    · exact argument (.inr (by simp [admitted])) ihArguments listed application member
  | @raw busy _ _ _ _ _ name _ _ _ _ free foreign admitted idle bounds _ ihBounds ih =>
    obtain rfl := bounds.after_eq
    have left : (name :: busy).erase name = busy := List.erase_cons_head ..
    rw [left] at ih
    have nothing : view.Resolves ((name :: busy).erase name) [] [] [] busy := left.symm ▸ .nil
    refine .cons (fun bindings application member => ?_) ih
    rcases ResolvedType.mem_applications_named_iff.1 member with rfl | ⟨arg, listed, member⟩
    · exact .inr ⟨_, _, .refl, rfl, fun _ => free, _, _,
        .raw free foreign admitted idle bounds nothing, ResolvedType.spellIn_named ..⟩
    rcases mem_argumentsOf listed with rfl | ⟨inside, closed⟩
    · simp [Spelling.applications] at member
    -- a bound that stands in has no variables, so nothing comes with one
    · obtain ⟨placed, bound, accounts⟩ := exists_of_forall₂ ihBounds inside
      rw [ResolvedType.spellIn_of_vars_eq_nil bindings closed, ← arg.spellIn_nil] at member
      rcases accounts [] application member with ⟨pair, none, -⟩ | makes
      · cases none
      · exact .inr (makes.of_enters (.standIn free foreign admitted idle bound))
  | again free foreign admitted entered _ ih =>
    refine .cons (fun bindings application member => ?_) ih
    rcases ResolvedType.mem_applications_named_iff.1 member with rfl | ⟨arg, listed, member⟩
    · exact .inr ⟨_, _, .refl, rfl, fun _ => free, _, _,
        .again free foreign admitted entered .nil, ResolvedType.spellIn_named ..⟩
    · rw [List.eq_of_mem_replicate listed] at member
      simp [Spelling.applications] at member

/-- Why a reference gives an unknown type for a parameter with a bound: the argument says nothing,
or it is missing while the bounds of the type are being resolved or where the bound mentions type
variables. -/
def LeavesOpen (view : HostView) (visit : Visit) (given : List Signature) (name : String)
    (index : Nat) (bound : ResolvedType) : Prop :=
  match given[index]? with
  | some signature => view.SaysNothing visit.scope visit.bindings signature
  | none => name ∈ visit.busy ∨ bound.vars ≠ []

/-- What a reference gives for a parameter: the spelling of the argument, or of the bound of the
parameter where the argument is missing. -/
def Supplies (view : HostView) (visit : Visit) (given : List Signature) (name : String)
    (index : Nat) (arg : Spelling) : Prop :=
  match given[index]? with
  | some signature => view.Spells { visit with signature } arg
  | none => ∃ type generic signature, view.admitted? name = some type ∧
      type.generics[index]? = some generic ∧ generic.bound = some signature ∧
      view.Spells ⟨name :: visit.busy, view.varsIn name type.generics, [], signature⟩ arg

theorem Resolves.spellIn_eq_unknown_iff {busy met after : List String} {scope : List String}
    {signature : Signature} {type : ResolvedType}
    (resolves : view.Resolves busy [⟨scope, signature⟩] [type] met after) (bindings : Bindings) :
    type.spellIn bindings = .unknown ↔ view.SaysNothing scope bindings signature := by
  cases resolves.saysNothing_iff with
  | cons first _ => exact first bindings

theorem Resolves.vars_eq {busy met after busy' met' after' : List String} {placed : Placed}
    {type other : ResolvedType} (resolves : view.Resolves busy [placed] [type] met after)
    (second : view.Resolves busy' [placed] [other] met' after') : type.vars = other.vars := by
  simpa using resolves.map_vars_eq second

theorem exists_getElem?_argumentsOf {busy met after scope : List String}
    {generics : List HostGeneric} {types : List ResolvedType}
    (resolves : view.Resolves busy (boundsIn scope generics) types met after) {index : Nat}
    {generic : HostGeneric} {signature : Signature} (known : generics[index]? = some generic)
    (bounded : generic.bound = some signature) :
    ∃ type met, view.Resolves busy [⟨scope, signature⟩] [type] met busy ∧
      (argumentsOf generics types)[index]? =
        some (if type.vars.isEmpty then type else .unknown) := by
  have each := resolves.each
  clear resolves
  -- a parameter without a bound takes no type
  induction generics generalizing types index with
  | nil => cases known
  | cons first rest ih =>
    obtain ⟨name, bound, variance⟩ := first
    cases bound with
    | none =>
      cases index with
      | zero =>
        obtain rfl := Option.some.inj known
        cases bounded
      | succ index => exact ih known each
    | some bound =>
      cases each with
      | cons here others =>
        cases index with
        | zero =>
          obtain rfl := Option.some.inj known
          obtain rfl := Option.some.inj bounded
          obtain ⟨met, here⟩ := here
          exact ⟨_, met, here, rfl⟩
        | succ index => exact ih known others

theorem exists_spells_of_getElem? {busy met scope : List String} {bindings : Bindings}
    {given : List Signature} {types : List ResolvedType}
    (resolves : view.Resolves busy (given.map (⟨scope, ·⟩)) types met busy) {index : Nat}
    {arg : Spelling} (found : (types.map (·.spellIn bindings))[index]? = some arg) :
    ∃ signature, given[index]? = some signature ∧
      (arg = .unknown ↔ view.SaysNothing scope bindings signature) ∧
      view.Spells ⟨busy, scope, bindings, signature⟩ arg := by
  rw [List.getElem?_map, Option.map_eq_some_iff] at found
  obtain ⟨type, found, rfl⟩ := found
  obtain ⟨signature, known, met, alone⟩ :=
    exists_getElem?_of_forall₂ (List.forall₂_map_left_iff.1 resolves.each) found
  exact ⟨signature, known, alone.spellIn_eq_unknown_iff bindings, type, met, alone, rfl⟩

/-- A bound that says something stands in for a missing argument unless it mentions variables. -/
theorem spells_of_getElem?_argumentsOf {busy met scope met' : List String} {bindings : Bindings}
    {generics : List HostGeneric} {types : List ResolvedType}
    (resolves : view.Resolves busy (boundsIn scope generics) types met busy) {index : Nat}
    {generic : HostGeneric} {signature : Signature} {bound : ResolvedType} {arg : Spelling}
    (known : generics[index]? = some generic) (bounded : generic.bound = some signature)
    (bounds : view.Resolves [] [⟨scope, signature⟩] [bound] met' []) (informs : bound.spell ≠ .unknown)
    (found : ((argumentsOf generics types).map (·.spellIn bindings))[index]? = some arg) :
    (arg = .unknown ↔ bound.vars ≠ []) ∧
      (arg ≠ .unknown → view.Spells ⟨busy, scope, [], signature⟩ arg) := by
  obtain ⟨type, met, alone, standIn⟩ := exists_getElem?_argumentsOf resolves known bounded
  rw [List.getElem?_map, standIn, Option.map_some, Option.some.injEq] at found
  -- the bound was resolved from another set of types, with the same variables
  rw [← alone.vars_eq bounds]
  by_cases closed : type.vars = []
  · rw [if_pos (by simp [closed]), type.spellIn_of_vars_eq_nil bindings closed] at found
    have speaks : type.spell ≠ .unknown := by
      rw [← type.spellIn_nil, ne_eq, alone.spellIn_eq_unknown_iff,
        ← bounds.spellIn_eq_unknown_iff, bound.spellIn_nil]
      exact informs
    rw [← found]
    exact ⟨by simp [speaks, closed], fun _ => ⟨type, met, alone, type.spellIn_nil⟩⟩
  · rw [if_neg (by simpa using closed)] at found
    rw [← found]
    exact ⟨by simp [closed], fun some => absurd rfl some⟩

/-- The arguments of a reference, each for a parameter whose bound says something: the parameter is
left open for a reason, or is supplied. -/
theorem Applies.exists_settled {visit : Visit} {given : List Signature} {application : Application}
    (applies : view.Applies visit given application) :
    ∃ type, view.admitted? application.name = some type ∧
      application.args.length = type.generics.length ∧
      ∀ index generic signature bound met arg, type.generics[index]? = some generic →
        generic.bound = some signature →
        view.Resolves [] [⟨view.varsIn application.name type.generics, signature⟩] [bound] met [] →
        bound.spell ≠ .unknown → application.args[index]? = some arg →
        (arg = .unknown ↔ view.LeavesOpen visit given application.name index bound) ∧
          (arg ≠ .unknown → view.Supplies visit given application.name index arg) := by
  obtain ⟨busy, scope, bindings, signature⟩ := visit
  obtain ⟨name, args⟩ := application
  obtain ⟨rfl, free, type', met, resolves, spelled⟩ := applies
  dsimp only at free resolves spelled ⊢
  cases resolves with
  | var inScope => exact absurd inScope (free rfl)
  | @builtin _ _ _ _ _ _ _ _ builtin =>
    cases builtin <;> simp [Builtin.apply] at spelled
  | hidden => cases spelled
  | @applied _ _ _ _ _ _ _ type _ _ _ _ foreign admitted nonempty arity arguments others =>
    obtain rfl := arguments.after_eq
    rw [ResolvedType.spellIn_named, Spelling.declared.injEq] at spelled
    obtain ⟨-, rfl⟩ := spelled
    refine ⟨type, admitted, by simpa [arity] using arguments.each.length_eq.symm, ?_⟩
    intro index generic signature bound met arg _ _ _ _ found
    obtain ⟨signature, given, erased, spells⟩ := exists_spells_of_getElem? arguments found
    simp only [LeavesOpen, Supplies, given]
    exact ⟨erased, fun _ => spells⟩
  | @raw _ _ _ _ _ _ _ type _ _ _ _ _ admitted idle bounds others =>
    obtain rfl := bounds.after_eq
    rw [ResolvedType.spellIn_named, Spelling.declared.injEq] at spelled
    obtain ⟨-, rfl⟩ := spelled
    refine ⟨type, admitted, by simp [length_argumentsOf], ?_⟩
    intro index generic signature bound met arg known bounded alone informs found
    obtain ⟨erased, spells⟩ := spells_of_getElem?_argumentsOf bounds known bounded alone informs found
    simp only [LeavesOpen, Supplies, List.getElem?_nil, idle, false_or]
    exact ⟨erased, fun some => ⟨type, generic, signature, admitted, known, bounded, spells some⟩⟩
  | @again _ _ _ _ _ type _ _ _ _ admitted entered others =>
    rw [ResolvedType.spellIn_named, Spelling.declared.injEq] at spelled
    obtain ⟨-, rfl⟩ := spelled
    refine ⟨type, admitted, by simp, ?_⟩
    intro index generic signature bound met arg _ _ _ _ found
    have erased : arg = .unknown := by
      have member := List.mem_of_getElem? found
      simp only [List.map_replicate, ResolvedType.spellIn_unknown] at member
      exact List.eq_of_mem_replicate member
    simp only [LeavesOpen, List.getElem?_nil]
    exact ⟨by simp [erased, entered], fun some => absurd erased some⟩

end HostView

end TypeBridge
