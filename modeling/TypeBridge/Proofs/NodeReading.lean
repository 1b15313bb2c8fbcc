import TypeBridge.Proofs.SignatureResolution

/-!
# Reading a host type

Reading a host type is one run over its signatures, each with the type variables of its place.
Besides, it mentions the types declared inside it, the one around it and its variants.
-/

namespace TypeBridge

namespace HostMember

/-- The type variables in scope inside a member, given those around it. -/
def scopeIn (member : HostMember) (scope : List String) : List String :=
  if member.isMethod then scope ++ member.generics.map (·.name) else scope

/-- The signatures of a member, in the order of their reading. -/
def signatures (member : HostMember) : List Signature :=
  if member.isMethod then
    member.generics.filterMap (·.bound) ++ member.parameters.map (·.type) ++ [member.type]
  else [member.type]

def placed (member : HostMember) (scope : List String) : List Placed :=
  member.signatures.map (⟨member.scopeIn scope, ·⟩)

end HostMember

/-- A member declares a type variable; only methods do. -/
def Member.Binds (member : Member) (name : String) : Prop :=
  match member.kind with
  | .field => False
  | .method _ generics => name ∈ generics.map (·.name)

namespace HostView

/-- The signatures of a host type that its node is made of, in the order of their reading. -/
def placed (view : HostView) (type : HostType) : List Placed :=
  let scope := view.varsIn type.name type.generics
  boundsIn scope type.generics ++ type.supertypes.map (⟨scope, ·⟩) ++
    (type.members.filter isListed).flatMap (·.placed scope)

/-- The types declared inside a host type that may be declared. -/
def innerNames (view : HostView) (type : HostType) : List String :=
  (type.nested.filter fun inner =>
    inner.visibility.isApi && view.allow.contains inner.name).map (·.name)

/-- The variants of a host type that may be declared. -/
def variantNames (view : HostView) (type : HostType) : List String :=
  type.variants.filter fun variant => (view.admitted? variant).isSome

/-- What a host type mentions besides its signatures. -/
def beside (view : HostView) (type : HostType) : List String :=
  view.innerNames type ++ ((Name.outer? type.name).filter view.model.contains).toList ++
    view.variantNames type

/-- A type parameter of a node has the bound that a signature of the host parameter makes. -/
def ReadsBound (view : HostView) (scope : List String) (host : HostGeneric) (generic : Generic) :
    Prop :=
  ∀ bound, generic.bound = some bound → ∃ signature met, host.bound = some signature ∧
    view.Resolves [] [⟨scope, signature⟩] [bound] met []

/-- A member of a node, as its signatures make it. -/
structure ReadsMember (view : HostView) (scope : List String) (member : HostMember)
    (result : Member) (mentioned : List String) : Prop where
  mem_scopeIn_iff : ∀ name, name ∈ member.scopeIn scope ↔ result.Binds name ∨ name ∈ scope
  resolves : ∃ types, types.Perm result.types ∧
    view.Resolves [] (member.placed scope) types mentioned []

/-- The parts of a node before those supertypes are left out that resolve to no reference. -/
structure Parts where
  supertypes : List ResolvedType
  members : List (Member × List String)
  boundsMet : List String
  supertypesMet : List String

namespace Parts

def met (parts : Parts) : List String :=
  parts.boundsMet ++ parts.supertypesMet ++ parts.members.flatMap (·.2)

end Parts

/-- A node, as the signatures of a host type make it. -/
structure ReadsNode (view : HostView) (type : HostType) (node : Node) (mentioned : List String)
    (parts : Parts) : Prop where
  name : node.name = type.name
  kind : node.kind = type.kind
  generics : node.generics.map (·.name) = type.generics.map (·.name)
  bounds : view.Resolves [] (boundsIn (view.varsIn type.name type.generics) type.generics)
    (node.generics.filterMap (·.bound)) parts.boundsMet []
  kept : node.supertypes = parts.supertypes.filter fun supertype => supertype.name?.isSome
  supertypes : view.Resolves []
    (type.supertypes.map (⟨view.varsIn type.name type.generics, ·⟩)) parts.supertypes
    parts.supertypesMet []
  listed : node.members = parts.members.map (·.1)
  members : List.Forall₂ (fun member reading =>
      view.ReadsMember (view.varsIn type.name type.generics) member reading.1 reading.2)
    (type.members.filter isListed) parts.members
  nested : node.nested = view.innerNames type
  variants : node.variants = view.variantNames type
  mentions : mentioned = parts.met ++ view.beside type

open Reading

variable {view : HostView}

theorem type_resolves (view : HostView) (scope : List String) (path : String)
    (signature : Signature) : (view.type scope path signature).Yields fun type mentioned =>
      view.Resolves [] [⟨scope, signature⟩] [type] mentioned [] :=
  fun _ _ => type_eq_result_iff.1

theorem bound_resolves (view : HostView) (scope : List String) (path : String)
    (signature : Signature) : (some <$> view.type scope path signature).Yields
      fun bound mentioned => ∃ type, bound = some type ∧
        view.Resolves [] [⟨scope, signature⟩] [type] mentioned [] :=
  (view.type_resolves scope path signature).map fun type _ resolves => ⟨type, rfl, resolves⟩

theorem resolves_map {α β : Type} (placed : α → Placed) (type : β → ResolvedType) {all : List α}
    {outcomes : List (β × List String)}
    (each : List.Forall₂ (fun a outcome =>
      view.Resolves [] [placed a] [type outcome.1] outcome.2 []) all outcomes) :
    view.Resolves [] (all.map placed) (outcomes.map fun outcome => type outcome.1)
      (outcomes.flatMap (·.2)) [] := by
  induction each with
  | nil => exact .nil
  | cons first _ ih => exact first.append ih

theorem types_resolve (view : HostView) (scope : List String) (path : String)
    (signatures : List Signature) :
    (signatures.mapM (view.type scope path)).Yields fun types mentioned =>
      view.Resolves [] (signatures.map (⟨scope, ·⟩)) types mentioned [] := by
  refine (Yields.mapM (view.type_resolves scope path) signatures).imp ?_
  rintro _ _ ⟨outcomes, rfl, rfl, all⟩
  exact resolves_map (⟨scope, ·⟩) id all

theorem generics_resolve (view : HostView) (scope : List String) (path : String)
    (generics : List HostGeneric) :
    (view.generics scope path generics).Yields fun results mentioned =>
      results.map (·.name) = generics.map (·.name) ∧
        view.Resolves [] (boundsIn scope generics) (results.filterMap (·.bound)) mentioned [] ∧
        List.Forall₂ (view.ReadsBound scope) generics results := by
  induction generics with
  | nil => exact .pure ⟨rfl, .nil, .nil⟩
  | cons generic rest ih =>
    obtain ⟨name, bound, variance⟩ := generic
    unfold HostView.generics at ih ⊢
    rw [List.mapM_cons]
    cases bound with
    | none =>
      dsimp only
      rw [pure_bind, pure_bind]
      refine ih.bind_pure ?_
      rintro results mentioned ⟨names, others, each⟩
      refine ⟨by rw [List.map_cons, names]; rfl, others, .cons (fun bound none => ?_) each⟩
      cases none
    | some signature =>
      dsimp only
      rw [bind_assoc]
      refine (view.bound_resolves scope _ signature).bind ?_
      rintro _ mentioned ⟨type, rfl, first⟩
      rw [pure_bind]
      refine ih.bind_pure ?_
      rintro results further ⟨names, others, each⟩
      refine ⟨by rw [List.map_cons, names]; rfl, first.append others, .cons ?_ each⟩
      intro bound same
      obtain rfl := Option.some.inj same
      exact ⟨signature, mentioned, rfl, first⟩

theorem parameters_resolve (view : HostView) (scope : List String) (path : String)
    (parameters : List HostParameter) :
    (view.parameters scope path parameters).Yields fun results mentioned =>
      view.Resolves [] ((parameters.map (·.type)).map (⟨scope, ·⟩)) (results.map (·.type))
        mentioned [] := by
  have each : ∀ parameter : HostParameter, Yields
      (do
        let type ← view.type scope (path ++ "(" ++ parameter.name ++ ")") parameter.type
        return (⟨parameter.name, type, parameter.isNullable⟩ : Parameter))
      fun result mentioned =>
        view.Resolves [] [⟨scope, parameter.type⟩] [result.type] mentioned [] := by
    intro parameter
    exact (view.type_resolves scope _ parameter.type).bind_pure fun _ _ resolves => resolves
  refine (Yields.mapM each parameters).imp ?_
  rintro _ _ ⟨outcomes, rfl, rfl, all⟩
  rw [List.map_map, List.map_map]
  exact resolves_map (fun parameter : HostParameter => ⟨scope, parameter.type⟩) Parameter.type all

theorem member_reading (view : HostView) (scope : List String) (owner : String)
    (member : HostMember) :
    (view.member scope owner member).Yields (view.ReadsMember scope member) := by
  unfold HostView.member
  by_cases isMethod : member.isMethod = true
  · simp only [isMethod, if_true]
    refine (view.generics_resolve _ _ member.generics).bind ?_
    rintro generics first ⟨names, bounds, -⟩
    refine (view.parameters_resolve _ _ member.parameters).bind ?_
    intro parameters second types
    rw [pure_bind]
    refine (view.type_resolves _ _ member.type).bind_pure ?_
    intro type third last
    constructor
    · intro name
      rw [HostMember.scopeIn, if_pos isMethod, List.mem_append, ← names, or_comm]
      rfl
    · refine ⟨generics.filterMap (·.bound) ++ parameters.map (·.type) ++ [type], ?_, ?_⟩
      · simp only [Member.types]
        rw [List.append_assoc]
        exact List.perm_append_comm.trans ((List.perm_append_singleton type _).append_right _)
      · have run := bounds.append (types.append last)
        simpa [HostMember.placed, HostMember.signatures, HostMember.scopeIn, isMethod, boundsIn]
          using run
  · simp only [isMethod, Bool.false_eq_true, if_false, pure_bind]
    refine (view.type_resolves _ _ member.type).bind_pure ?_
    intro type mentioned resolves
    constructor
    · intro name
      rw [HostMember.scopeIn, if_neg isMethod, Member.Binds, false_or]
    · refine ⟨[type], .refl _, ?_⟩
      simpa [HostMember.placed, HostMember.signatures, HostMember.scopeIn, isMethod] using resolves

theorem mentions_yields (names : List String) :
    (names.forM mention).Yields fun _ mentioned => mentioned = names := by
  induction names with
  | nil => exact .pure rfl
  | cons name rest ih =>
    refine (mention_yields name).bind ?_
    rintro _ _ rfl
    exact ih.imp fun _ _ same => congrArg (name :: ·) same

theorem nested_yields (view : HostView) (type : HostType) :
    (view.nested type.nested).Yields fun names mentioned =>
      names = view.innerNames type ∧ mentioned = view.innerNames type :=
  (mentions_yields _).bind_pure fun _ _ same => ⟨rfl, same⟩

theorem variants_yields (view : HostView) (owner : String) (variants : List String) :
    (view.variants owner variants).Yields fun names mentioned =>
      names = (variants.filter fun variant => (view.admitted? variant).isSome) ∧
        mentioned = names := by
  induction variants with
  | nil => exact .pure ⟨rfl, rfl⟩
  | cons variant rest ih =>
    unfold HostView.variants
    split
    · exact yields_refuse
    cases found : view.admitted? variant with
    | none =>
      rw [List.filter_cons_of_neg (by simp [found])]
      exact ih
    | some type =>
      rw [List.filter_cons_of_pos (by simp [found])]
      refine (mention_yields variant).bind ?_
      rintro _ _ rfl
      refine ih.bind_pure ?_
      rintro _ _ ⟨rfl, rfl⟩
      exact ⟨rfl, rfl⟩

/-- Reading a host type makes each part of the node of its signatures. -/
theorem node_reading (view : HostView) (type : HostType) :
    (view.node type).Yields fun node mentioned => ∃ parts,
      view.ReadsNode type node mentioned parts := by
  unfold HostView.node
  refine (view.generics_resolve _ _ type.generics).bind ?_
  rintro generics boundsMet ⟨names, bounds, -⟩
  refine (view.types_resolve _ _ type.supertypes).bind ?_
  intro supertypes supertypesMet above
  refine (Yields.mapM (view.member_reading _ type.name) (type.members.filter isListed)).bind ?_
  rintro _ _ ⟨members, rfl, rfl, each⟩
  refine (view.nested_yields type).bind ?_
  rintro _ _ ⟨rfl, rfl⟩
  -- The enclosing type is mentioned between the nested types and the variants, if there is one.
  have whole : ∀ outers variants : List String, variants = view.variantNames type →
      outers = ((Name.outer? type.name).filter view.model.contains).toList →
      ∃ parts, view.ReadsNode type
        { name := type.name
          kind := type.kind
          doc := type.doc
          generics
          members := members.map (·.1)
          supertypes := supertypes.filter fun supertype => supertype.name?.isSome
          nested := view.innerNames type
          variants
          constants := type.constants
          index := 0 }
        (boundsMet ++ (supertypesMet ++ (members.flatMap (·.2) ++
          (view.innerNames type ++ (outers ++ variants))))) parts := by
    rintro _ _ rfl rfl
    exact ⟨⟨supertypes, members, boundsMet, supertypesMet⟩,
      { name := rfl
        kind := rfl
        generics := names
        bounds
        kept := rfl
        supertypes := above
        listed := rfl
        members := each
        nested := rfl
        variants := rfl
        mentions := by simp [Parts.met, beside] }⟩
  dsimp only
  cases around : (Name.outer? type.name).filter view.model.contains with
  | none =>
    refine (view.variants_yields type.name type.variants).bind_pure ?_
    rintro _ _ ⟨same, rfl⟩
    exact whole [] _ same (by rw [around]; rfl)
  | some outer =>
    refine (mention_yields outer).bind ?_
    rintro _ _ rfl
    refine (view.variants_yields type.name type.variants).bind_pure ?_
    rintro _ _ ⟨same, rfl⟩
    exact whole [outer] _ same (by rw [around]; rfl)

end HostView

end TypeBridge
