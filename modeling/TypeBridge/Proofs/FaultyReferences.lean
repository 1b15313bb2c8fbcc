import TypeBridge.Proofs.MentionedTypes

/-!
# Faulty references

A reference is faulty when the model lacks a type that it should have, or when the number of its
arguments is not that of the parameters of its type.  Reading a host type fails exactly when one of
its signatures has a faulty reference, a bound that stands in for missing arguments has one, or a
variant is not in the model.
-/

namespace TypeBridge

namespace Reading

variable {α β : Type} {reading : Reading α} {blame : PassError → Prop}

/-- Every error of a reading keeps a promise. -/
def Blames (reading : Reading α) (blame : PassError → Prop) : Prop :=
  ∀ error, reading = refuse error → blame error

theorem blames_pure {a : α} : Blames (pure a) blame := by
  rintro _ ⟨⟩

theorem blames_mention {name : String} : Blames (mention name) blame := by
  rintro _ ⟨⟩

theorem blames_refuse {error : PassError} (kept : blame error) :
    Blames (refuse error : Reading α) blame := by
  rintro _ ⟨⟩
  exact kept

theorem Blames.bind {next : α → Reading β} (first : reading.Blames blame)
    (rest : ∀ a, (next a).Blames blame) : (reading >>= next).Blames blame := by
  intro error fails
  rcases eq_refuse_or_result reading with ⟨error', rfl⟩ | ⟨a, mentioned, rfl⟩
  · cases fails
    exact first error rfl
  · rcases eq_refuse_or_result (next a) with ⟨error', read⟩ | ⟨b, further, read⟩
    · rw [result_bind_refuse read] at fails
      cases fails
      exact rest a error read
    · rw [result_bind_result read] at fails
      exact absurd fails.symm refuse_ne_result

theorem Blames.map {f : α → β} (first : reading.Blames blame) : (f <$> reading).Blames blame := by
  rw [map_eq_pure_bind]
  exact first.bind fun _ => blames_pure

theorem Blames.imp {weaker : PassError → Prop} (first : reading.Blames blame)
    (kept : ∀ error, blame error → weaker error) : reading.Blames weaker :=
  fun error fails => kept error (first error fails)

theorem Blames.mapM {read : α → Reading β} {all : List α}
    (each : ∀ a ∈ all, (read a).Blames blame) : (all.mapM read).Blames blame := by
  induction all with
  | nil => exact blames_pure
  | cons a rest ih =>
    rw [List.mapM_cons]
    refine (each a List.mem_cons_self).bind fun b => ?_
    exact (ih fun other member => each other (List.mem_cons_of_mem _ member)).bind
      fun _ => blames_pure

/-- What the last reading of a sequence promises of itself does not depend on the first one. -/
theorem yields_const_bind {next : α → Reading β} {promise : Prop}
    (last : ∀ a, (next a).Yields fun _ _ => promise) :
    (reading >>= next).Yields fun _ _ => promise := by
  intro b all succeeds
  obtain ⟨a, mentioned, further, -, read, -⟩ := bind_eq_result_iff.1 succeeds
  exact last a b further read

end Reading

/-- A member that no declaration lists: it is static, not visible from outside, or a method of every
object. -/
def HostMember.IsSkipped (member : HostMember) : Prop :=
  member.isStatic = true ∨ member.visibility.isApi = false ∨
    member.isMethod = true ∧ member.name ∈ HostView.objectMethods

namespace HostView

theorem isListed_iff {member : HostMember} : isListed member = true ↔ ¬ member.IsSkipped := by
  simp only [isListed, HostMember.IsSkipped, Bool.and_eq_true, Bool.not_eq_true', not_or,
    Bool.and_eq_false_iff, List.contains_eq_mem, decide_eq_false_iff_not, Bool.not_eq_true,
    Bool.not_eq_false, and_assoc, not_and, imp_iff_not_or]

/-- The path of a declaration of a host type, and a signature that stands in it. -/
inductive Site (view : HostView) (type : HostType) : String → Placed → Prop
  | bound {generic : HostGeneric} {bound : Signature} (declared : generic ∈ type.generics)
      (bounded : generic.bound = some bound) :
      Site view type (type.name ++ "<" ++ generic.name ++ ">")
        ⟨view.varsIn type.name type.generics, bound⟩
  | supertype {signature : Signature} (listed : signature ∈ type.supertypes) :
      Site view type (type.name ++ " (supertype)") ⟨view.varsIn type.name type.generics, signature⟩
  | memberBound {member : HostMember} {generic : HostGeneric} {bound : Signature}
      (inside : member ∈ type.members) (kept : ¬ member.IsSkipped)
      (isMethod : member.isMethod = true) (declared : generic ∈ member.generics)
      (bounded : generic.bound = some bound) :
      Site view type (type.name ++ "." ++ member.name ++ "<" ++ generic.name ++ ">")
        ⟨member.scopeIn (view.varsIn type.name type.generics), bound⟩
  | parameter {member : HostMember} {parameter : HostParameter}
      (inside : member ∈ type.members) (kept : ¬ member.IsSkipped)
      (isMethod : member.isMethod = true) (declared : parameter ∈ member.parameters) :
      Site view type (type.name ++ "." ++ member.name ++ "(" ++ parameter.name ++ ")")
        ⟨member.scopeIn (view.varsIn type.name type.generics), parameter.type⟩
  /-- The type of a field or the result of a method. -/
  | member {member : HostMember} (inside : member ∈ type.members) (kept : ¬ member.IsSkipped) :
      Site view type (type.name ++ "." ++ member.name)
        ⟨member.scopeIn (view.varsIn type.name type.generics), member.type⟩

/-- A signature at some path has a faulty reference.  The arguments of a type that may not be
declared do not count. -/
inductive Refused (view : HostView) (path : String) : Placed → PassError → Prop
  | anyBelow {scope : List String} {bound : Signature} {error : PassError}
      (inner : Refused view path ⟨scope, bound⟩ error) :
      Refused view path ⟨scope, .anyBelow bound⟩ error
  | anyAbove {scope : List String} {bound : Signature} {error : PassError}
      (inner : Refused view path ⟨scope, bound⟩ error) :
      Refused view path ⟨scope, .anyAbove bound⟩ error
  | array {scope : List String} {element : Signature} {error : PassError}
      (inner : Refused view path ⟨scope, element⟩ error) :
      Refused view path ⟨scope, .array element⟩ error
  | builtin {scope : List String} {name : String} {args : List Signature} {arg : Signature}
      {builtin : Builtin} {error : PassError} (known : Builtin.ofName? name = some builtin)
      (member : arg ∈ args) (inner : Refused view path ⟨scope, arg⟩ error) :
      Refused view path ⟨scope, .named name args⟩ error
  | argument {scope : List String} {name : String} {args : List Signature} {arg : Signature}
      {error : PassError} (foreign : Builtin.ofName? name = none) (admits : view.Admits name)
      (member : arg ∈ args) (inner : Refused view path ⟨scope, arg⟩ error) :
      Refused view path ⟨scope, .named name args⟩ error
  /-- No type variable, no built-in type, and not in the model, which should have had it. -/
  | missing {scope : List String} {name : String} {args : List Signature}
      (free : args = [] → name ∉ scope) (foreign : Builtin.ofName? name = none)
      (absent : name ∉ view.model.names) (allowed : view.allow.contains name = true) :
      Refused view path ⟨scope, .named name args⟩ (.unresolvedType name path)
  | arity {scope : List String} {name : String} {args : List Signature} {type : HostType}
      (foreign : Builtin.ofName? name = none) (admitted : view.admitted? name = some type)
      (given : args ≠ []) (differs : args.length ≠ type.generics.length) :
      Refused view path ⟨scope, .named name args⟩
        (.genericArity name path type.generics.length args.length)

/-- A type of the model has a faulty reference, or a variant that is not in the model. -/
inductive Faults (view : HostView) (name : String) : PassError → Prop
  | reference {type : HostType} {path : String} {placed : Placed} {error : PassError}
      (found : view.model.get? name = some type) (site : view.Site type path placed)
      (refused : view.Refused path placed error) : Faults view name error
  | variant {type : HostType} {variant : String} (found : view.model.get? name = some type)
      (listed : variant ∈ type.variants) (absent : variant ∉ view.model.names) :
      Faults view name (.unknownVariant name variant)

/-- An error of a signature at some path: a faulty reference in it, or a fault of a type that it
meets. -/
def Blamed (view : HostView) (path : String) (placed : Placed) (error : PassError) : Prop :=
  view.Refused path placed error ∨ ∃ met, view.Meets placed met ∧ view.Faults met error

open Reading

variable {view : HostView}

theorem Blamed.imp {path : String} {placed outer : Placed} {error : PassError}
    (blamed : view.Blamed path placed error)
    (refused : view.Refused path placed error → view.Refused path outer error)
    (meets : ∀ met, view.Meets placed met → view.Meets outer met) :
    view.Blamed path outer error := by
  rcases blamed with inner | ⟨met, inner, faults⟩
  · exact Or.inl (refused inner)
  · exact Or.inr ⟨met, meets met inner, faults⟩

/-- An error in a bound of a type that is given no arguments is a fault of that type, or of a type
that is met further on. -/
theorem Blamed.of_bound {path name : String} {scope : List String} {type : HostType}
    {generic : HostGeneric} {bound : Signature} {error : PassError} (free : name ∉ scope)
    (foreign : Builtin.ofName? name = none) (admitted : view.admitted? name = some type)
    (declared : generic ∈ type.generics) (bounded : generic.bound = some bound)
    (blamed : view.Blamed (name ++ "<" ++ generic.name ++ ">")
      ⟨view.varsIn name type.generics, bound⟩ error) :
    view.Blamed path ⟨scope, .named name []⟩ error := by
  obtain ⟨found, -, -⟩ := admitted?_eq_some_iff.1 admitted
  obtain ⟨-, rfl⟩ := HostModel.get?_eq_some_iff.1 found
  rcases blamed with inner | ⟨met, inner, faults⟩
  · refine Or.inr ⟨type.name, ?_, .reference found (.bound declared bounded) inner⟩
    exact .itself (fun _ => free) foreign (admits_of_admitted? admitted)
  · refine Or.inr ⟨met, .bound free foreign admitted (by simp) ?_ inner, faults⟩
    exact List.mem_map_of_mem (List.mem_filterMap.2 ⟨generic, declared, bounded⟩)

mutual

/-- Resolving a signature fails for a reason. -/
theorem resolve_blames (view : HostView) (expandable scope : List String) (path : String) :
    ∀ signature, (view.resolve expandable scope path signature).Blames
      (view.Blamed path ⟨scope, signature⟩)
  | .anything => by
    unfold resolve
    exact blames_pure
  | .anyBelow bound => by
    unfold resolve
    refine Blames.bind ?_ fun _ => blames_pure
    exact (view.resolve_blames expandable scope path bound).imp
      fun _ blamed => blamed.imp .anyBelow fun _ => .anyBelow
  | .anyAbove bound => by
    unfold resolve
    refine Blames.bind ?_ fun _ => blames_pure
    exact (view.resolve_blames expandable scope path bound).imp
      fun _ blamed => blamed.imp .anyAbove fun _ => .anyAbove
  | .array element => by
    unfold resolve
    refine Blames.bind ?_ fun _ => blames_pure
    exact (view.resolve_blames expandable scope path element).imp
      fun _ blamed => blamed.imp .array fun _ => .array
  | .named name args => by
    unfold resolve
    split
    · exact blames_pure
    next notVar =>
    have free : args = [] → name ∉ scope := by
      rintro rfl inScope
      simp [inScope] at notVar
    cases known : Builtin.ofName? name with
    | some builtin =>
      refine Blames.bind ?_ fun _ => blames_pure
      refine (view.resolveAll_blames expandable scope path args).imp ?_
      rintro error ⟨arg, member, blamed⟩
      exact blamed.imp (.builtin known member) fun _ => .builtin known member
    | none =>
      cases found : view.admitted? name with
      | none =>
        dsimp only
        split
        · next wanted =>
          simp only [Bool.and_eq_true, Bool.not_eq_true'] at wanted
          refine blames_refuse (Or.inl (.missing free known ?_ wanted.1))
          rw [← HostModel.contains_iff, wanted.2]
          exact Bool.false_ne_true
        · exact blames_pure
      | some type =>
        refine blames_mention.bind fun _ => ?_
        split
        · next arity =>
          simp only [Bool.and_eq_true, Bool.not_eq_true', List.isEmpty_eq_false_iff, bne_iff_ne]
            at arity
          exact blames_refuse (Or.inl (.arity known found arity.1 arity.2))
        split
        · refine Blames.bind ?_ fun _ => blames_pure
          refine (view.resolveAll_blames expandable scope path args).imp ?_
          rintro error ⟨arg, member, blamed⟩
          have admits := admits_of_admitted? found
          exact blamed.imp (.argument known admits member) fun _ => .argument known admits member
        next notGiven =>
        obtain rfl : args = [] := by simpa using notGiven
        split
        · refine Blames.bind ?_ fun _ => blames_pure
          refine (view.boundsOf_blames (expandable.erase name) (view.varsIn name type.generics) name
            type.generics).imp ?_
          rintro error ⟨generic, bound, declared, bounded, blamed⟩
          exact .of_bound (free rfl) known found declared bounded blamed
        · exact blames_pure
termination_by signature => (expandable.length, sizeOf signature)
decreasing_by
  · exact Prod.Lex.right _ (by simp)
  · exact Prod.Lex.right _ (by simp)
  · exact Prod.Lex.right _ (by simp)
  · next listed =>
    exact Prod.Lex.left _ _ (by
      rw [List.length_erase_of_mem listed]
      have := List.length_pos_of_mem listed
      omega)
  · exact Prod.Lex.right _ (by rw [Signature.named.sizeOf_spec]; omega)
  · exact Prod.Lex.right _ (by rw [Signature.named.sizeOf_spec]; omega)

theorem resolveAll_blames (view : HostView) (expandable scope : List String) (path : String) :
    ∀ signatures, (view.resolveAll expandable scope path signatures).Blames fun error =>
      ∃ signature ∈ signatures, view.Blamed path ⟨scope, signature⟩ error
  | [] => by
    unfold resolveAll
    exact blames_pure
  | signature :: rest => by
    unfold resolveAll
    refine Blames.bind ?_ fun _ => Blames.bind ?_ fun _ => blames_pure
    · exact (view.resolve_blames expandable scope path signature).imp
        fun _ blamed => ⟨signature, List.mem_cons_self, blamed⟩
    · refine (view.resolveAll_blames expandable scope path rest).imp ?_
      rintro error ⟨other, member, blamed⟩
      exact ⟨other, List.mem_cons_of_mem _ member, blamed⟩
termination_by signatures => (expandable.length, sizeOf signatures)
decreasing_by
  · exact Prod.Lex.right _ (by rw [List.cons.sizeOf_spec]; omega)
  · exact Prod.Lex.right _ (by rw [List.cons.sizeOf_spec]; omega)

theorem boundsOf_blames (view : HostView) (expandable scope : List String) (name : String) :
    ∀ generics, (view.boundsOf expandable scope name generics).Blames fun error =>
      ∃ generic : HostGeneric, ∃ bound, generic ∈ generics ∧ generic.bound = some bound ∧
        view.Blamed (name ++ "<" ++ generic.name ++ ">") ⟨scope, bound⟩ error
  | [] => by
    unfold boundsOf
    exact blames_pure
  | ⟨generic, bound, variance⟩ :: rest => by
    unfold boundsOf
    have others := view.boundsOf_blames expandable scope name rest
    have later : ∀ type : ResolvedType, Blames (do
        let types ← view.boundsOf expandable scope name rest
        return type :: types) fun error => ∃ other : HostGeneric, ∃ signature,
          other ∈ ⟨generic, bound, variance⟩ :: rest ∧ other.bound = some signature ∧
            view.Blamed (name ++ "<" ++ other.name ++ ">") ⟨scope, signature⟩ error := by
      intro type
      refine Blames.bind (others.imp ?_) fun _ => blames_pure
      rintro error ⟨other, signature, declared, bounded, blamed⟩
      exact ⟨other, signature, List.mem_cons_of_mem _ declared, bounded, blamed⟩
    cases bound with
    | none => exact blames_pure.bind later
    | some signature =>
      refine Blames.bind ?_ fun type => blames_pure.bind later
      exact (view.resolve_blames expandable scope _ signature).imp
        fun _ blamed => ⟨_, signature, List.mem_cons_self, rfl, blamed⟩
termination_by generics => (expandable.length, sizeOf generics)
decreasing_by
  · exact Prod.Lex.right _ (by rw [List.cons.sizeOf_spec]; omega)
  · exact Prod.Lex.right _ (by
      rw [List.cons.sizeOf_spec, HostGeneric.mk.sizeOf_spec, Option.some.sizeOf_spec]
      omega)

end

theorem type_blames (view : HostView) (scope : List String) (path : String)
    (signature : Signature) :
    (view.type scope path signature).Blames (view.Blamed path ⟨scope, signature⟩) :=
  view.resolve_blames view.model.names scope path signature

theorem generics_blames (view : HostView) (scope : List String) (path : String)
    (generics : List HostGeneric) : (view.generics scope path generics).Blames fun error =>
      ∃ generic ∈ generics, ∃ bound, generic.bound = some bound ∧
        view.Blamed (path ++ "<" ++ generic.name ++ ">") ⟨scope, bound⟩ error := by
  refine Blames.mapM fun generic declared => ?_
  cases bounded : generic.bound with
  | none => exact blames_pure.bind fun _ => blames_pure
  | some bound =>
    refine Blames.bind (Blames.map ?_) fun _ => blames_pure
    exact (view.type_blames scope _ bound).imp
      fun _ blamed => ⟨generic, declared, bound, bounded, blamed⟩

theorem parameters_blames (view : HostView) (scope : List String) (path : String)
    (parameters : List HostParameter) : (view.parameters scope path parameters).Blames fun error =>
      ∃ parameter ∈ parameters,
        view.Blamed (path ++ "(" ++ parameter.name ++ ")") ⟨scope, parameter.type⟩ error := by
  refine Blames.mapM fun parameter declared => Blames.bind ?_ fun _ => blames_pure
  exact (view.type_blames scope _ parameter.type).imp fun _ blamed => ⟨parameter, declared, blamed⟩

variable {type : HostType}

/-- An error while a host type is read: one of a signature in it, or of a missing variant. -/
def NodeBlamed (view : HostView) (type : HostType) (error : PassError) : Prop :=
  (∃ path placed, view.Site type path placed ∧ view.Blamed path placed error) ∨
    ∃ variant ∈ type.variants, variant ∉ view.model.names ∧
      error = .unknownVariant type.name variant

theorem NodeBlamed.of_site {path : String} {placed : Placed} {error : PassError}
    (site : view.Site type path placed) (blamed : view.Blamed path placed error) :
    view.NodeBlamed type error :=
  Or.inl ⟨path, placed, site, blamed⟩

theorem member_blames {member : HostMember} (inside : member ∈ type.members)
    (kept : ¬ member.IsSkipped) :
    (view.member (view.varsIn type.name type.generics) type.name member).Blames
      (view.NodeBlamed type) := by
  have inner : (if member.isMethod then
        view.varsIn type.name type.generics ++ member.generics.map (·.name)
      else view.varsIn type.name type.generics) =
      member.scopeIn (view.varsIn type.name type.generics) := rfl
  have result := (view.type_blames (member.scopeIn (view.varsIn type.name type.generics))
    (type.name ++ "." ++ member.name) member.type).imp
      fun _ => NodeBlamed.of_site (.member inside kept)
  unfold HostView.member
  dsimp only
  rw [inner]
  split
  · next isMethod =>
    refine Blames.bind ?_ fun _ => Blames.bind ?_ fun _ => blames_pure.bind fun _ =>
      result.bind fun _ => blames_pure
    · refine (view.generics_blames _ _ member.generics).imp ?_
      rintro error ⟨generic, declared, bound, bounded, blamed⟩
      exact .of_site (.memberBound inside kept isMethod declared bounded) blamed
    · refine (view.parameters_blames _ _ member.parameters).imp ?_
      rintro error ⟨parameter, declared, blamed⟩
      exact .of_site (.parameter inside kept isMethod declared) blamed
  · exact blames_pure.bind fun _ => result.bind fun _ => blames_pure

theorem mentions_blames {names : List String} {blame : PassError → Prop} :
    (names.forM mention).Blames blame := by
  induction names with
  | nil => exact blames_pure
  | cons name rest ih => exact blames_mention.bind fun _ => ih

theorem variants_blames (view : HostView) (owner : String) (variants : List String) :
    (view.variants owner variants).Blames fun error =>
      ∃ variant ∈ variants, variant ∉ view.model.names ∧ error = .unknownVariant owner variant := by
  induction variants with
  | nil => exact blames_pure
  | cons variant rest ih =>
    have later : (view.variants owner rest).Blames fun error => ∃ other ∈ variant :: rest,
        other ∉ view.model.names ∧ error = .unknownVariant owner other := by
      refine ih.imp ?_
      rintro error ⟨other, member, missing⟩
      exact ⟨other, List.mem_cons_of_mem variant member, missing⟩
    unfold HostView.variants
    split
    · next absent =>
      have missing : variant ∉ view.model.names := by
        rw [← HostModel.contains_iff]
        simpa using absent
      exact blames_refuse ⟨variant, List.mem_cons_self, missing, rfl⟩
    cases view.admitted? variant with
    | none => exact later
    | some type => exact blames_mention.bind fun _ => later.bind fun _ => blames_pure

/-- Reading a host type fails for a reason. -/
theorem node_blames (view : HostView) (type : HostType) :
    (view.node type).Blames (view.NodeBlamed type) := by
  unfold HostView.node
  refine Blames.bind ?_ fun _ => Blames.bind ?_ fun _ => Blames.bind ?_ fun _ =>
    Blames.bind ?_ fun _ => ?_
  · refine (view.generics_blames _ _ type.generics).imp ?_
    rintro error ⟨generic, declared, bound, bounded, blamed⟩
    exact .of_site (.bound declared bounded) blamed
  · refine Blames.mapM fun signature listed => ?_
    exact (view.type_blames _ _ signature).imp fun _ => NodeBlamed.of_site (.supertype listed)
  · refine Blames.mapM fun member listed => ?_
    obtain ⟨inside, kept⟩ := List.mem_filter.1 listed
    exact member_blames inside (isListed_iff.1 kept)
  · exact mentions_blames.bind fun _ => blames_pure
  · have variants := (view.variants_blames type.name type.variants).imp fun error missing =>
      (Or.inr missing : view.NodeBlamed type error)
    dsimp only
    split
    · exact variants.bind fun _ => blames_pure
    · exact blames_mention.bind fun _ => variants.bind fun _ => blames_pure

theorem Site.mem_placed {path : String} {placed : Placed} (site : view.Site type path placed) :
    placed ∈ view.placed type := by
  have ofMember : ∀ member ∈ type.members, ¬ member.IsSkipped →
      ∀ placed ∈ member.placed (view.varsIn type.name type.generics),
        placed ∈ view.placed type := by
    intro member inside kept placed stands
    exact List.mem_append_right _ (List.mem_flatMap.2
      ⟨member, List.mem_filter.2 ⟨inside, isListed_iff.2 kept⟩, stands⟩)
  cases site with
  | bound declared bounded =>
    refine List.mem_append_left _ (List.mem_append_left _ (List.mem_map_of_mem ?_))
    exact List.mem_filterMap.2 ⟨_, declared, bounded⟩
  | supertype listed =>
    exact List.mem_append_left _ (List.mem_append_right _ (List.mem_map_of_mem listed))
  | memberBound inside kept isMethod declared bounded =>
    refine ofMember _ inside kept _ (List.mem_map_of_mem ?_)
    rw [HostMember.signatures, if_pos isMethod]
    simp only [List.mem_append, List.mem_filterMap]
    exact Or.inl (Or.inl ⟨_, declared, bounded⟩)
  | parameter inside kept isMethod declared =>
    refine ofMember _ inside kept _ (List.mem_map_of_mem ?_)
    rw [HostMember.signatures, if_pos isMethod]
    simp only [List.mem_append, List.mem_map]
    exact Or.inl (Or.inr ⟨_, declared, rfl⟩)
  | member inside kept =>
    refine ofMember _ inside kept _ (List.mem_map_of_mem ?_)
    rw [HostMember.signatures]
    split <;> simp

/-- What stops the reading of a type is a fault of the type or of one that it leads to. -/
theorem NodeBlamed.exists_faults {error : PassError} (blamed : view.NodeBlamed type error)
    (found : view.model.get? type.name = some type) :
    view.Faults type.name error ∨ ∃ met, view.Leads type.name met ∧ view.Faults met error := by
  rcases blamed with ⟨path, placed, site, refused | ⟨met, meets, faults⟩⟩ | missing
  · exact Or.inl (.reference found site refused)
  · exact Or.inr ⟨met, .signature found site.mem_placed meets, faults⟩
  · obtain ⟨variant, listed, absent, rfl⟩ := missing
    exact Or.inl (.variant found listed absent)

/-- Signatures that are resolved have no faulty reference. -/
theorem Resolves.not_refused {busy mentioned after : List String} {placed : List Placed}
    {types : List ResolvedType} (resolves : view.Resolves busy placed types mentioned after) :
    ∀ one ∈ placed, ∀ path error, ¬ view.Refused path one error := by
  induction resolves with
  | nil => simp
  | anything _ ih =>
    refine List.forall_mem_cons.2 ⟨?_, ih⟩
    rintro path error ⟨⟩
  | anyBelow _ ih =>
    obtain ⟨inside, others⟩ := List.forall_mem_cons.1 ih
    refine List.forall_mem_cons.2 ⟨?_, others⟩
    rintro path error (inner | _)
    exact inside path error inner
  | anyAbove _ ih =>
    obtain ⟨inside, others⟩ := List.forall_mem_cons.1 ih
    refine List.forall_mem_cons.2 ⟨?_, others⟩
    rintro path error (_ | inner)
    exact inside path error inner
  | array _ ih =>
    obtain ⟨inside, others⟩ := List.forall_mem_cons.1 ih
    refine List.forall_mem_cons.2 ⟨?_, others⟩
    rintro path error (_ | _ | inner)
    exact inside path error inner
  | var inScope _ ih =>
    refine List.forall_mem_cons.2 ⟨?_, ih⟩
    intro path error refused
    cases refused with
    | builtin _ member _ | argument _ _ member _ => cases member
    | missing free _ _ _ => exact free rfl inScope
    | arity _ _ given _ => exact given rfl
  | builtin _ known _ _ ihArguments ih =>
    refine List.forall_mem_cons.2 ⟨?_, ih⟩
    intro path error refused
    cases refused with
    | builtin _ member inner => exact ihArguments _ (List.mem_map_of_mem member) path error inner
    | argument foreign _ _ _ | missing _ foreign _ _ | arity foreign _ _ _ =>
      simp [known] at foreign
  | hidden _ foreign excluded dispensable _ ih =>
    refine List.forall_mem_cons.2 ⟨?_, ih⟩
    intro path error refused
    cases refused with
    | builtin known _ _ => simp [foreign] at known
    | argument _ admits _ _ =>
      rw [← isSome_admitted?_iff, excluded] at admits
      simp at admits
    | missing _ _ absent allowed =>
      rw [← HostModel.contains_iff] at absent
      simp [allowed, absent] at dispensable
    | arity _ admitted _ _ => simp [excluded] at admitted
  | applied foreign admitted _ arity _ _ ihArguments ih =>
    refine List.forall_mem_cons.2 ⟨?_, ih⟩
    intro path error refused
    cases refused with
    | builtin known _ _ => simp [foreign] at known
    | argument _ _ member inner =>
      exact ihArguments _ (List.mem_map_of_mem member) path error inner
    | missing _ _ absent _ => exact absent (mem_names_of_admitted? admitted)
    | arity _ admitted' _ differs =>
      obtain rfl := Option.some.inj (admitted.symm.trans admitted')
      exact differs arity
  | raw _ foreign admitted _ _ _ _ ih | again _ foreign admitted _ _ ih =>
    refine List.forall_mem_cons.2 ⟨?_, ih⟩
    intro path error refused
    cases refused with
    | builtin _ member _ | argument _ _ member _ => cases member
    | missing _ _ absent _ => exact absent (mem_names_of_admitted? admitted)
    | arity _ _ given _ => exact given rfl

theorem variants_known (view : HostView) (owner : String) (variants : List String) :
    (view.variants owner variants).Yields fun _ _ =>
      ∀ variant ∈ variants, variant ∈ view.model.names := by
  induction variants with
  | nil => exact .pure (by simp)
  | cons variant rest ih =>
    unfold HostView.variants
    split
    · exact yields_refuse
    next present =>
    have known : variant ∈ view.model.names := by
      rw [← HostModel.contains_iff]
      simpa using present
    have all (others : ∀ other ∈ rest, other ∈ view.model.names) :
        ∀ other ∈ variant :: rest, other ∈ view.model.names :=
      List.forall_mem_cons.2 ⟨known, others⟩
    cases view.admitted? variant with
    | none => exact ih.imp fun _ _ => all
    | some type => exact yields_const_bind fun _ => ih.bind_pure fun _ _ => all

/-- A host type that is read has no fault. -/
theorem node_flawless {node : Node} {mentioned : List String}
    (found : view.model.get? type.name = some type)
    (reading : view.node type = Reading.result node mentioned) (error : PassError) :
    ¬ view.Faults type.name error := by
  obtain ⟨parts, reads⟩ := view.node_reading type node mentioned reading
  obtain ⟨types, resolves⟩ := reads.resolves
  intro faults
  cases faults with
  | reference found' site refused =>
    obtain rfl := Option.some.inj (found.symm.trans found')
    exact resolves.not_refused _ site.mem_placed _ error refused
  | variant found' listed absent =>
    obtain rfl := Option.some.inj (found.symm.trans found')
    have known : (view.node type).Yields fun _ _ =>
        ∀ variant ∈ type.variants, variant ∈ view.model.names := by
      have variants := view.variants_known type.name type.variants
      unfold HostView.node
      refine yields_const_bind fun _ => yields_const_bind fun _ => yields_const_bind fun _ =>
        yields_const_bind fun _ => ?_
      dsimp only
      split
      · exact variants.bind_pure fun _ _ all => all
      · exact yields_const_bind fun _ => variants.bind_pure fun _ _ all => all
    exact absent (known node mentioned reading _ listed)

end HostView

end TypeBridge
