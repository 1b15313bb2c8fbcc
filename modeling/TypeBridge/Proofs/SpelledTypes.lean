import TypeBridge.Declaration.Spelling
import TypeBridge.Graph.Substitution
import TypeBridge.Proofs.SignatureResolution

/-!
# How signatures are spelled

A signature is spelled through the type that it resolves to, at a place where type variables may
stand for other types.  Whether anything is left of it then can be told from the signature alone,
and so can the type variables in it.
-/

namespace TypeBridge

/-- A reference to a declared type with its arguments, as a declaration spells it. -/
structure Application where
  name : String
  args : List Spelling

namespace Spelling

mutual

def applications : Spelling → List Application
  | declared name args => ⟨name, args⟩ :: applicationsOfAll args
  | array element | set element | nullable element => element.applications
  | map key value => key.applications ++ value.applications
  | primitive _ | unknown | var _ => []

def applicationsOfAll : List Spelling → List Application
  | [] => []
  | spelling :: rest => spelling.applications ++ applicationsOfAll rest

end

theorem applicationsOfAll_eq_flatMap (spellings : List Spelling) :
    applicationsOfAll spellings = spellings.flatMap (·.applications) := by
  induction spellings with
  | nil => rfl
  | cons spelling rest ih => simp [applicationsOfAll, ih]

mutual

theorem map_name_applications : ∀ spelling : Spelling,
    spelling.applications.map (·.name) = spelling.names
  | declared _ args => by simp [applications, names, map_name_applicationsOfAll args]
  | array element | set element | nullable element => map_name_applications element
  | map key value => by
    simp [applications, names, map_name_applications key, map_name_applications value]
  | primitive _ | unknown | var _ => rfl

theorem map_name_applicationsOfAll : ∀ spellings : List Spelling,
    (applicationsOfAll spellings).map (·.name) = namesOfAll spellings
  | [] => rfl
  | spelling :: rest => by
    simp [applicationsOfAll, namesOfAll, map_name_applications spelling,
      map_name_applicationsOfAll rest]

end

end Spelling

namespace ResolvedType

/-- The spelling of a type where variables stand for types. -/
def spellIn (bindings : Bindings) (type : ResolvedType) : Spelling :=
  (type.substitute bindings).spell

theorem spellAll_eq_map (types : List ResolvedType) : spellAll types = types.map (·.spell) := by
  induction types with
  | nil => rfl
  | cons type rest ih => simp [spellAll, ih]

section

variable (bindings : Bindings)

theorem spellIn_nil (type : ResolvedType) : type.spellIn [] = type.spell := by
  rw [spellIn, substitute_nil]

@[simp]
theorem spellIn_named (name : String) (args : List ResolvedType) :
    (named name args).spellIn bindings = .declared name (args.map (·.spellIn bindings)) := by
  simp [spellIn, substitute, spell, spellAll_eq_map, substituteAll_eq_map]

@[simp]
theorem spellIn_array (element : ResolvedType) :
    (array element).spellIn bindings = .array (element.spellIn bindings) :=
  rfl

@[simp]
theorem spellIn_set (element : ResolvedType) :
    (set element).spellIn bindings = .set (element.spellIn bindings) :=
  rfl

@[simp]
theorem spellIn_map (key value : ResolvedType) :
    (map key value).spellIn bindings = .map (key.spellIn bindings) (value.spellIn bindings) :=
  rfl

@[simp]
theorem spellIn_optional (inner : ResolvedType) :
    (optional inner).spellIn bindings = .nullable (inner.spellIn bindings) :=
  rfl

@[simp]
theorem spellIn_primitive (which : Primitive) :
    (primitive which).spellIn bindings = .primitive which :=
  rfl

@[simp]
theorem spellIn_unknown : unknown.spellIn bindings = .unknown :=
  rfl

theorem spellIn_var (name : String) :
    (var name).spellIn bindings = ((bindings.lookup name).map (·.spell)).getD (.var name) := by
  rw [spellIn, substitute]
  cases bindings.lookup name <;> rfl

mutual

theorem substitute_of_vars_eq_nil : ∀ type : ResolvedType, type.vars = [] →
    type.substitute bindings = type
  | var _ => by simp [vars]
  | named _ args => by
    simp only [vars, substitute, named.injEq, true_and]
    exact substituteAll_of_varsOfAll_eq_nil args
  | map key value => by
    simp only [vars, List.append_eq_nil_iff, substitute, map.injEq]
    exact And.imp (substitute_of_vars_eq_nil key) (substitute_of_vars_eq_nil value)
  | array element | set element | optional element => by
    simp only [vars, substitute, array.injEq, set.injEq, optional.injEq]
    exact substitute_of_vars_eq_nil element
  | anyBelow bound | anyAbove bound => by
    simp only [vars, substitute, anyBelow.injEq, anyAbove.injEq]
    exact substitute_of_vars_eq_nil bound
  | primitive _ | anything | unknown => fun _ => rfl

theorem substituteAll_of_varsOfAll_eq_nil : ∀ types : List ResolvedType, varsOfAll types = [] →
    substituteAll bindings types = types
  | [] => fun _ => rfl
  | type :: rest => by
    simp only [varsOfAll, List.append_eq_nil_iff, substituteAll, List.cons.injEq]
    exact And.imp (substitute_of_vars_eq_nil type) (substituteAll_of_varsOfAll_eq_nil rest)

end

theorem spellIn_of_vars_eq_nil {type : ResolvedType} (closed : type.vars = []) :
    type.spellIn bindings = type.spell := by
  rw [spellIn, substitute_of_vars_eq_nil bindings type closed]

theorem mem_applications_named_iff {bindings : Bindings} {name : String}
    {args : List ResolvedType} {application : Application} :
    application ∈ ((named name args).spellIn bindings).applications ↔
      application = ⟨name, args.map (·.spellIn bindings)⟩ ∨
        ∃ arg ∈ args, application ∈ (arg.spellIn bindings).applications := by
  simp [Spelling.applications, Spelling.applicationsOfAll_eq_flatMap]

/-- Only `Object` is spelled as an unknown type among the built-in types. -/
theorem spellIn_apply_eq_unknown_iff (builtin : Builtin) (args : List ResolvedType) :
    (builtin.apply args).spellIn bindings = .unknown ↔ builtin = .unknown := by
  cases builtin <;> simp [Builtin.apply]

theorem exists_of_mem_applications_apply {builtin : Builtin} {args : List ResolvedType}
    {application : Application}
    (member : application ∈ ((builtin.apply args).spellIn bindings).applications) :
    ∃ arg ∈ args, application ∈ (arg.spellIn bindings).applications := by
  have argument : ∀ index : Nat,
      application ∈ (((args[index]?).getD unknown).spellIn bindings).applications →
        ∃ arg ∈ args, application ∈ (arg.spellIn bindings).applications := by
    intro index spelled
    cases found : args[index]? with
    | none => simp [found, Spelling.applications] at spelled
    | some arg =>
      rw [found] at spelled
      exact ⟨arg, List.mem_of_getElem? found, spelled⟩
  cases builtin with
  | primitive | unknown => simp [Builtin.apply, Spelling.applications] at member
  | array | set | optional => exact argument 0 member
  | map => exact (List.mem_append.1 member).elim (argument 0) (argument 1)

end

theorem varsOfAll_eq_flatten (types : List ResolvedType) :
    varsOfAll types = (types.map (·.vars)).flatten := by
  induction types with
  | nil => rfl
  | cons type rest ih => simp [varsOfAll, ih]

theorem vars_getD_unknown (args : List ResolvedType) (index : Nat) :
    ((args[index]?).getD unknown).vars = (((args.map (·.vars))[index]?).getD []) := by
  rw [List.getElem?_map]
  cases args[index]? <;> rfl

theorem vars_apply_congr (builtin : Builtin) {args others : List ResolvedType}
    (same : args.map (·.vars) = others.map (·.vars)) :
    (builtin.apply args).vars = (builtin.apply others).vars := by
  cases builtin <;> simp [Builtin.apply, vars, vars_getD_unknown, same]

end ResolvedType

namespace HostView

variable {view : HostView}

/-- A signature that is spelled as an unknown type in some scope, where its variables stand for
types: a wildcard without an upper bound, `Object`, a type that may not be declared, or a variable
that stands for such a type. -/
inductive SaysNothing (view : HostView) (scope : List String) (bindings : Bindings) :
    Signature → Prop
  | anything : SaysNothing view scope bindings .anything
  | anyBelow {bound : Signature} (inner : SaysNothing view scope bindings bound) :
      SaysNothing view scope bindings (.anyBelow bound)
  | anyAbove {bound : Signature} : SaysNothing view scope bindings (.anyAbove bound)
  | var {name : String} {type : ResolvedType} (inScope : name ∈ scope)
      (replaced : bindings.lookup name = some type) (erased : type.spell = .unknown) :
      SaysNothing view scope bindings (.named name [])
  | object {name : String} {args : List Signature} (free : args = [] → name ∉ scope)
      (known : Builtin.ofName? name = some .unknown) :
      SaysNothing view scope bindings (.named name args)
  | hidden {name : String} {args : List Signature} (free : args = [] → name ∉ scope)
      (foreign : Builtin.ofName? name = none) (excluded : view.admitted? name = none) :
      SaysNothing view scope bindings (.named name args)

/-- A signature says nothing exactly when its type is spelled as an unknown one. -/
theorem Resolves.saysNothing_iff {busy mentioned after : List String} {placed : List Placed}
    {types : List ResolvedType} (resolves : view.Resolves busy placed types mentioned after) :
    List.Forall₂ (fun placed type => ∀ bindings : Bindings, type.spellIn bindings = .unknown ↔
      view.SaysNothing placed.scope bindings placed.signature) placed types := by
  have admitted_not : ∀ {name : String} {type : HostType} {args : List Signature}
      {scope : List String} {bindings : Bindings}, (args = [] → name ∉ scope) →
      Builtin.ofName? name = none → view.admitted? name = some type →
      ¬ view.SaysNothing scope bindings (.named name args) := by
    intro name type args scope bindings free foreign admitted saysNothing
    cases saysNothing with
    | var inScope => exact free rfl inScope
    | object _ known => simp [foreign] at known
    | hidden _ _ excluded => simp [admitted] at excluded
  induction resolves with
  | nil => exact .nil
  | anything _ ih => exact .cons (fun _ => ⟨fun _ => .anything, fun _ => rfl⟩) ih
  | anyBelow _ ih =>
    cases ih with
    | cons first others =>
      refine .cons (fun bindings => (first bindings).trans ⟨.anyBelow, ?_⟩) others
      rintro ⟨⟩
      assumption
  | anyAbove _ ih =>
    cases ih with
    | cons first others => exact .cons (fun _ => ⟨fun _ => .anyAbove, fun _ => rfl⟩) others
  | array _ ih =>
    cases ih with
    | cons first others => exact .cons (fun _ => ⟨by simp, fun saysNothing => by cases saysNothing⟩) others
  | @var _ _ _ _ name _ _ inScope _ ih =>
    refine .cons (fun bindings => ?_) ih
    rw [ResolvedType.spellIn_var]
    constructor
    · intro erased
      cases replaced : bindings.lookup name with
      | none => simp [replaced] at erased
      | some type => exact .var inScope replaced (by simpa [replaced] using erased)
    · intro saysNothing
      cases saysNothing with
      | var _ replaced erased => simp [replaced, erased]
      | object free => exact absurd inScope (free rfl)
      | hidden free => exact absurd inScope (free rfl)
  | builtin free known _ _ _ ih =>
    refine .cons (fun bindings => ?_) ih
    rw [ResolvedType.spellIn_apply_eq_unknown_iff]
    constructor
    · rintro rfl
      exact .object free known
    · intro saysNothing
      cases saysNothing with
      | var inScope => exact absurd inScope (free rfl)
      | object _ known' => exact Option.some.inj (known.symm.trans known')
      | hidden _ foreign => simp [known] at foreign
  | hidden free foreign excluded _ _ ih =>
    exact .cons (fun _ => ⟨fun _ => .hidden free foreign excluded, fun _ => rfl⟩) ih
  | applied foreign admitted given _ _ _ _ ih =>
    exact .cons (fun _ => ⟨by simp, fun saysNothing =>
      absurd saysNothing (admitted_not (fun none => absurd none given) foreign admitted)⟩) ih
  | raw free foreign admitted _ _ _ _ ih | again free foreign admitted _ _ ih =>
    exact .cons (fun _ => ⟨by simp, fun saysNothing =>
      absurd saysNothing (admitted_not (fun _ => free) foreign admitted)⟩) ih

/-- What resolved signatures are made of: each of them is a run of its own. -/
theorem Resolves.each {busy mentioned after : List String} {placed : List Placed}
    {types : List ResolvedType} (resolves : view.Resolves busy placed types mentioned after) :
    List.Forall₂ (fun placed type => ∃ met, view.Resolves busy [placed] [type] met busy) placed
      types := by
  induction resolves with
  | nil => exact .nil
  | anything _ ih => exact .cons ⟨_, .anything .nil⟩ ih
  | anyBelow _ ih =>
    cases ih with
    | cons first others => exact .cons (first.imp fun _ => .anyBelow) others
  | anyAbove _ ih =>
    cases ih with
    | cons first others => exact .cons (first.imp fun _ => .anyAbove) others
  | array _ ih =>
    cases ih with
    | cons first others => exact .cons (first.imp fun _ => .array) others
  | var inScope _ ih => exact .cons ⟨_, .var inScope .nil⟩ ih
  | builtin free known arguments _ _ ih =>
    obtain rfl := arguments.after_eq
    exact .cons ⟨_, .builtin free known arguments .nil⟩ ih
  | hidden free foreign excluded dispensable _ ih =>
    exact .cons ⟨_, .hidden free foreign excluded dispensable .nil⟩ ih
  | applied foreign admitted given arity arguments _ _ ih =>
    obtain rfl := arguments.after_eq
    exact .cons ⟨_, .applied foreign admitted given arity arguments .nil⟩ ih
  | @raw busy _ _ _ _ _ name _ _ _ _ free foreign admitted idle bounds _ _ ih =>
    obtain rfl := bounds.after_eq
    have left : (name :: busy).erase name = busy := List.erase_cons_head ..
    rw [left] at ih
    have nothing : view.Resolves ((name :: busy).erase name) [] [] [] busy := left.symm ▸ .nil
    exact .cons ⟨_, .raw free foreign admitted idle bounds nothing⟩ ih
  | again free foreign admitted entered _ ih =>
    exact .cons ⟨_, .again free foreign admitted entered .nil⟩ ih

theorem vars_named_argumentsOf (name : String) (generics : List HostGeneric)
    (types : List ResolvedType) :
    (ResolvedType.named name (argumentsOf generics types)).vars = [] := by
  rw [ResolvedType.vars, ResolvedType.varsOfAll_eq_flatten, List.flatten_eq_nil_iff]
  intro vars listed
  obtain ⟨arg, given, rfl⟩ := List.mem_map.1 listed
  rcases mem_argumentsOf given with rfl | ⟨-, closed⟩
  · rfl
  · exact closed

theorem vars_named_replicate (name : String) (n : Nat) :
    (ResolvedType.named name (List.replicate n .unknown)).vars = [] := by
  simp [ResolvedType.vars, ResolvedType.varsOfAll_eq_flatten]

/-- Types that stand in for missing arguments leave no variables, so the variables of a type do not
depend on the types whose bounds are being resolved. -/
theorem Resolves.map_vars_eq {busy mentioned after : List String} {placed : List Placed}
    {types : List ResolvedType} (resolves : view.Resolves busy placed types mentioned after)
    {busy' mentioned' after' : List String} {others : List ResolvedType}
    (second : view.Resolves busy' placed others mentioned' after') :
    types.map (·.vars) = others.map (·.vars) := by
  induction resolves generalizing busy' mentioned' after' others with
  | nil =>
    cases second
    rfl
  | anything _ ih =>
    cases second with
    | anything rest => rw [List.map_cons, List.map_cons, ih rest]
  | anyBelow _ ih =>
    cases second with
    | anyBelow inner => simpa [ResolvedType.vars] using ih inner
  | anyAbove _ ih =>
    cases second with
    | anyAbove inner => simpa [ResolvedType.vars] using ih inner
  | array _ ih =>
    cases second with
    | array inner => simpa [ResolvedType.vars] using ih inner
  | var inScope _ ih =>
    cases second with
    | var _ rest => rw [List.map_cons, List.map_cons, ih rest]
    | builtin free | hidden free => exact absurd inScope (free rfl)
    | applied _ _ given => exact absurd rfl given
    | raw free | again free => exact absurd inScope free
  | builtin free known _ _ ihArguments ih =>
    cases second with
    | var inScope => exact absurd inScope (free rfl)
    | builtin _ known' arguments rest =>
      obtain rfl := Option.some.inj (known.symm.trans known')
      rw [List.map_cons, List.map_cons, ih rest,
        ResolvedType.vars_apply_congr _ (ihArguments arguments)]
    | hidden _ foreign | applied foreign | raw _ foreign | again _ foreign =>
      simp [known] at foreign
  | hidden free foreign excluded _ _ ih =>
    cases second with
    | var inScope => exact absurd inScope (free rfl)
    | builtin _ known => simp [foreign] at known
    | hidden _ _ _ _ rest => rw [List.map_cons, List.map_cons, ih rest]
    | applied _ admitted | raw _ _ admitted | again _ _ admitted => simp [excluded] at admitted
  | applied foreign admitted given _ _ _ ihArguments ih =>
    cases second with
    | builtin _ known => simp [foreign] at known
    | hidden _ _ excluded => simp [admitted] at excluded
    | applied _ _ _ _ arguments rest =>
      rw [List.map_cons, List.map_cons, ih rest, ResolvedType.vars, ResolvedType.vars,
        ResolvedType.varsOfAll_eq_flatten, ResolvedType.varsOfAll_eq_flatten,
        ihArguments arguments]
    | var | raw | again => exact absurd rfl given
  | raw free foreign admitted _ _ _ _ ih | again free foreign admitted _ _ ih =>
    cases second with
    | var inScope => exact absurd inScope free
    | builtin _ known => simp [foreign] at known
    | hidden _ _ excluded => simp [admitted] at excluded
    | applied _ _ given => exact absurd rfl given
    | raw _ _ _ _ _ rest | again _ _ _ _ rest =>
      simp only [List.map_cons, ih rest, vars_named_argumentsOf, vars_named_replicate]

end HostView

end TypeBridge
