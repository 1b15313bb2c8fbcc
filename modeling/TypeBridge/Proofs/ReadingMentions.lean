import Mathlib.Data.List.Forall2
import TypeBridge.Closure.Reading

/-!
# What a reading mentions

A reading mentions every type that its result names, and apart from the enclosing type of a host
type it mentions only types that may be declared.
-/

namespace TypeBridge

namespace Reading

variable {α β : Type}

/-- A reading that succeeds. -/
def result (a : α) (mentioned : List String) : Reading α :=
  Except.ok (a, mentioned)

theorem eq_refuse_or_result (reading : Reading α) :
    (∃ error, reading = refuse error) ∨ ∃ a mentioned, reading = result a mentioned := by
  rcases reading with error | ⟨a, mentioned⟩
  · exact Or.inl ⟨error, rfl⟩
  · exact Or.inr ⟨a, mentioned, rfl⟩

theorem result_inj {a b : α} {mentioned further : List String} :
    result a mentioned = result b further ↔ a = b ∧ mentioned = further := by
  constructor
  · rintro ⟨⟩
    exact ⟨rfl, rfl⟩
  · rintro ⟨rfl, rfl⟩
    rfl

theorem refuse_ne_result {error : PassError} {a : α} {mentioned : List String} :
    refuse error ≠ result a mentioned := by
  rintro ⟨⟩

theorem result_bind_refuse {a : α} {mentioned : List String} {next : α → Reading β}
    {error : PassError} (read : next a = refuse error) :
    result a mentioned >>= next = refuse error := by
  simp only [bind, result, read]
  rfl

theorem result_bind_result {a : α} {mentioned further : List String} {next : α → Reading β} {b : β}
    (read : next a = result b further) :
    result a mentioned >>= next = result b (mentioned ++ further) := by
  simp only [bind, result, read]
  rfl

/-- A sequence succeeds when both of its parts do. -/
theorem bind_eq_result_iff {reading : Reading α} {next : α → Reading β} {b : β}
    {all : List String} :
    reading >>= next = result b all ↔
      ∃ a mentioned further, reading = result a mentioned ∧ next a = result b further ∧
        all = mentioned ++ further := by
  constructor
  · intro succeeds
    rcases eq_refuse_or_result reading with ⟨error, rfl⟩ | ⟨a, mentioned, rfl⟩
    · exact absurd succeeds refuse_ne_result
    rcases eq_refuse_or_result (next a) with ⟨error, read⟩ | ⟨b', further, read⟩
    · rw [result_bind_refuse read] at succeeds
      exact absurd succeeds refuse_ne_result
    · rw [result_bind_result read] at succeeds
      obtain ⟨rfl, rfl⟩ := result_inj.1 succeeds
      exact ⟨a, mentioned, further, rfl, read, rfl⟩
  · rintro ⟨a, mentioned, further, rfl, read, rfl⟩
    exact result_bind_result read

instance : LawfulMonad Reading :=
  LawfulMonad.mk' _
    (by
      intro α reading
      rcases eq_refuse_or_result reading with ⟨error, rfl⟩ | ⟨a, mentioned, rfl⟩
      · rfl
      · have read : (pure ∘ id : α → Reading α) a = result a [] := rfl
        refine (result_bind_result read).trans ?_
        rw [List.append_nil])
    (by
      intro α β a next
      rcases eq_refuse_or_result (next a) with ⟨error, read⟩ | ⟨b, further, read⟩
      · exact (result_bind_refuse read).trans read.symm
      · exact (result_bind_result read).trans read.symm)
    (by
      intro α β γ reading next last
      rcases eq_refuse_or_result reading with ⟨error, rfl⟩ | ⟨a, mentioned, rfl⟩
      · rfl
      rcases eq_refuse_or_result (next a) with ⟨error, read⟩ | ⟨b, further, read⟩
      · rw [result_bind_refuse read, result_bind_refuse (by rw [read]; rfl)]
        rfl
      rw [result_bind_result read]
      rcases eq_refuse_or_result (last b) with ⟨error, read'⟩ | ⟨c, more, read'⟩
      · rw [result_bind_refuse read', result_bind_refuse (by rw [read, result_bind_refuse read'])]
      · rw [result_bind_result read',
          result_bind_result (by rw [read, result_bind_result read']), List.append_assoc])

/-- Every result of a reading, with what it mentions, keeps a promise. -/
def Yields (reading : Reading α) (promise : α → List String → Prop) : Prop :=
  ∀ a mentioned, reading = result a mentioned → promise a mentioned

variable {reading : Reading α} {promise : α → List String → Prop}

theorem Yields.pure {a : α} (kept : promise a []) : Yields (pure a) promise := by
  rintro _ _ ⟨⟩
  exact kept

theorem Yields.bind {next : α → Reading β} {last : β → List String → Prop}
    (first : reading.Yields promise)
    (rest : ∀ a mentioned, promise a mentioned →
      (next a).Yields fun b further => last b (mentioned ++ further)) :
    (reading >>= next).Yields last := by
  intro b all succeeds
  obtain ⟨a, mentioned, further, read, readNext, rfl⟩ := bind_eq_result_iff.1 succeeds
  exact rest a mentioned (first a mentioned read) b further readNext

theorem Yields.imp {weaker : α → List String → Prop} (first : reading.Yields promise)
    (kept : ∀ a mentioned, promise a mentioned → weaker a mentioned) : reading.Yields weaker :=
  fun a mentioned read => kept a mentioned (first a mentioned read)

/-- What is made of a result at the end of a reading mentions nothing more. -/
theorem Yields.bind_pure {f : α → β} {last : β → List String → Prop}
    (first : reading.Yields promise)
    (kept : ∀ a mentioned, promise a mentioned → last (f a) mentioned) :
    (reading >>= fun a => Pure.pure (f a)).Yields last := by
  refine first.bind ?_
  intro a mentioned holds
  refine .pure ?_
  rw [List.append_nil]
  exact kept a mentioned holds

theorem Yields.map {f : α → β} {last : β → List String → Prop} (first : reading.Yields promise)
    (kept : ∀ a mentioned, promise a mentioned → last (f a) mentioned) :
    (f <$> reading).Yields last := by
  rw [map_eq_pure_bind]
  exact first.bind_pure kept

theorem yields_mention {name : String} {promise : Unit → List String → Prop}
    (kept : promise () [name]) : Yields (mention name) promise := by
  rintro _ _ ⟨⟩
  exact kept

theorem yields_refuse {error : PassError} : Yields (refuse error) promise := by
  rintro _ _ ⟨⟩

/-- A list of readings has the outcome of each, one after another. -/
theorem Yields.mapM {read : α → Reading β} {promise : α → β → List String → Prop}
    (each : ∀ a, (read a).Yields (promise a)) (all : List α) :
    (all.mapM read).Yields fun results mentioned => ∃ outcomes : List (β × List String),
      outcomes.map (·.1) = results ∧ outcomes.flatMap (·.2) = mentioned ∧
        List.Forall₂ (fun a outcome => promise a outcome.1 outcome.2) all outcomes := by
  induction all with
  | nil => exact .pure ⟨[], rfl, rfl, .nil⟩
  | cons a rest ih =>
    rw [List.mapM_cons]
    refine (each a).bind ?_
    intro b mentioned first
    refine ih.bind_pure ?_
    rintro _ _ ⟨outcomes, rfl, rfl, others⟩
    exact ⟨(b, mentioned) :: outcomes, rfl, rfl, .cons first others⟩

end Reading

namespace HostView

/-- A type of the model that may be declared: inside the allow-list and visible from outside. -/
def Admits (view : HostView) (name : String) : Prop :=
  ∃ type, view.model.get? name = some type ∧ view.allow.contains name = true ∧
    type.visibility.isApi = true

theorem admitted?_eq_some_iff {view : HostView} {name : String} {type : HostType} :
    view.admitted? name = some type ↔
      view.model.get? name = some type ∧ view.allow.contains name = true ∧
        type.visibility.isApi = true := by
  simp [admitted?, Option.filter_eq_some_iff]

theorem admits_of_admitted? {view : HostView} {name : String} {type : HostType}
    (found : view.admitted? name = some type) : view.Admits name :=
  ⟨type, admitted?_eq_some_iff.1 found⟩

theorem isSome_admitted?_iff {view : HostView} {name : String} :
    (view.admitted? name).isSome = true ↔ view.Admits name := by
  simp only [Option.isSome_iff_exists, admitted?_eq_some_iff, Admits]

/-- Some names are all mentioned, and whatever is mentioned may be. -/
structure Covers (may : String → Prop) (names mentioned : List String) : Prop where
  subset : ∀ name ∈ names, name ∈ mentioned
  allowed : ∀ name ∈ mentioned, may name

namespace Covers

variable {may : String → Prop} {names names' mentioned mentioned' : List String}

theorem nil : Covers may [] [] :=
  ⟨by simp, by simp⟩

theorem append (first : Covers may names mentioned) (second : Covers may names' mentioned') :
    Covers may (names ++ names') (mentioned ++ mentioned') := by
  refine ⟨fun name member => ?_, fun name member => ?_⟩
  · rcases List.mem_append.1 member with left | right
    · exact List.mem_append_left _ (first.subset name left)
    · exact List.mem_append_right _ (second.subset name right)
  · rcases List.mem_append.1 member with left | right
    · exact first.allowed name left
    · exact second.allowed name right

theorem single {name : String} (allowed : may name) : Covers may [name] [name] :=
  ⟨fun _ member => member, fun _ member => List.mem_singleton.1 member ▸ allowed⟩

theorem of_subset (covers : Covers may names mentioned) (fewer : ∀ name ∈ names', name ∈ names) :
    Covers may names' mentioned :=
  ⟨fun name member => covers.subset name (fewer name member), covers.allowed⟩

theorem mono {may' : String → Prop} (covers : Covers may names mentioned)
    (more : ∀ name, may name → may' name) : Covers may' names mentioned :=
  ⟨covers.subset, fun name member => more name (covers.allowed name member)⟩

theorem allowed_of_mem (covers : Covers may names mentioned) {name : String}
    (member : name ∈ names) : may name :=
  covers.allowed name (covers.subset name member)

end Covers

open Reading

theorem mention_covers {may : String → Prop} {name : String} (allowed : may name) :
    (mention name).Yields fun _ mentioned => Covers may [name] mentioned :=
  yields_mention (.single allowed)

/-- A built-in type names what its arguments name. -/
theorem names_apply_subset (builtin : Builtin) (args : List ResolvedType) :
    ∀ name ∈ (builtin.apply args).names, name ∈ ResolvedType.namesOfAll args := by
  have argument : ∀ index : Nat, ∀ name ∈ ((args[index]?).getD ResolvedType.unknown).names,
      name ∈ ResolvedType.namesOfAll args := by
    intro index name member
    cases found : args[index]? with
    | none => simp [found, ResolvedType.names] at member
    | some type =>
      rw [found, Option.getD_some] at member
      exact ResolvedType.mem_namesOfAll_iff.2 ⟨type, List.mem_of_getElem? found, member⟩
  intro name member
  cases builtin with
  | primitive which => simp [Builtin.apply, ResolvedType.names] at member
  | unknown => simp [Builtin.apply, ResolvedType.names] at member
  | array | set | optional => exact argument 0 name member
  | map =>
    rcases List.mem_append.1 member with key | value
    · exact argument 0 name key
    · exact argument 1 name value

theorem namesOfAll_replicate_unknown (n : Nat) :
    ResolvedType.namesOfAll (List.replicate n .unknown) = [] := by
  induction n with
  | zero => rfl
  | succ n ih => simpa [List.replicate_succ, ResolvedType.namesOfAll, ResolvedType.names] using ih

mutual

/-- Resolving a signature mentions what the resolved type names. -/
theorem resolve_covers (view : HostView) (expandable scope : List String) (path : String) :
    ∀ signature, (view.resolve expandable scope path signature).Yields fun type mentioned =>
      Covers view.Admits type.names mentioned
  | .anything => by
    unfold resolve
    exact .pure .nil
  | .anyBelow bound | .anyAbove bound | .array bound => by
    unfold resolve
    exact (view.resolve_covers expandable scope path bound).bind_pure
      fun _ _ covers => covers
  | .named name args => by
    unfold resolve
    split
    · exact .pure .nil
    cases Builtin.ofName? name with
    | some builtin =>
      exact (view.resolveAll_covers expandable scope path args).bind_pure
        fun types _ covers => covers.of_subset (names_apply_subset builtin types)
    | none =>
      cases found : view.admitted? name with
      | none =>
        dsimp only
        split
        · exact yields_refuse
        · exact .pure .nil
      | some type =>
        refine (mention_covers (admits_of_admitted? found)).bind ?_
        intro _ mentioned itself
        split
        · exact yields_refuse
        split
        · exact (view.resolveAll_covers expandable scope path args).bind_pure
            fun _ _ covers => itself.append covers
        split
        · exact (view.boundsOf_covers (expandable.erase name)
            (view.varsIn name type.generics) name type.generics).bind_pure
            fun _ _ covers => itself.append covers
        · apply Yields.pure
          rw [List.append_nil]
          apply itself.of_subset
          rw [ResolvedType.names, namesOfAll_replicate_unknown]
          exact fun _ member => member
termination_by signature => (expandable.length, sizeOf signature)
decreasing_by
  · exact Prod.Lex.right _ (by simp)
  · exact Prod.Lex.right _ (by simp)
  · exact Prod.Lex.right _ (by simp)
  · next listed =>
    exact Prod.Lex.left _ _ (by
      rw [List.length_erase_of_mem listed]
      have := List.length_pos_of_mem listed
      omega)
  · exact Prod.Lex.right _ (by rw [Signature.named.sizeOf_spec]; omega)
  · exact Prod.Lex.right _ (by rw [Signature.named.sizeOf_spec]; omega)

theorem resolveAll_covers (view : HostView) (expandable scope : List String) (path : String) :
    ∀ signatures, (view.resolveAll expandable scope path signatures).Yields
      fun types mentioned => Covers view.Admits (ResolvedType.namesOfAll types) mentioned
  | [] => by
    unfold resolveAll
    exact .pure .nil
  | signature :: rest => by
    unfold resolveAll
    refine (view.resolve_covers expandable scope path signature).bind ?_
    intro type mentioned covers
    exact (view.resolveAll_covers expandable scope path rest).bind_pure
      fun _ _ coversAll => covers.append coversAll
termination_by signatures => (expandable.length, sizeOf signatures)
decreasing_by
  · exact Prod.Lex.right _ (by rw [List.cons.sizeOf_spec]; omega)
  · exact Prod.Lex.right _ (by rw [List.cons.sizeOf_spec]; omega)

theorem boundsOf_covers (view : HostView) (expandable scope : List String) (name : String) :
    ∀ generics, (view.boundsOf expandable scope name generics).Yields
      fun types mentioned => Covers view.Admits (ResolvedType.namesOfAll types) mentioned
  | [] => by
    unfold boundsOf
    exact .pure .nil
  | ⟨generic, bound, _⟩ :: rest => by
    unfold boundsOf
    have others : ∀ type mentioned, Covers view.Admits type.names mentioned →
        Yields (do
          let types ← view.boundsOf expandable scope name rest
          return type :: types)
          fun types further =>
            Covers view.Admits (ResolvedType.namesOfAll types) (mentioned ++ further) := by
      intro type mentioned covers
      exact (view.boundsOf_covers expandable scope name rest).bind_pure
        fun _ _ coversAll => covers.append coversAll
    cases bound with
    | none => exact (Yields.pure .nil).bind others
    | some signature =>
      refine (view.resolve_covers expandable scope _ signature).bind ?_
      intro type mentioned covers
      rw [pure_bind]
      apply others
      split
      · exact covers
      · exact covers.of_subset (by simp [ResolvedType.names])
termination_by generics => (expandable.length, sizeOf generics)
decreasing_by
  · exact Prod.Lex.right _ (by rw [List.cons.sizeOf_spec]; omega)
  · exact Prod.Lex.right _ (by
      rw [List.cons.sizeOf_spec, HostGeneric.mk.sizeOf_spec, Option.some.sizeOf_spec]
      omega)

end

theorem type_covers (view : HostView) (scope : List String) (path : String)
    (signature : Signature) : (view.type scope path signature).Yields fun type mentioned =>
      Covers view.Admits type.names mentioned :=
  view.resolve_covers view.model.names scope path signature

/-- What a list of readings names is mentioned when this holds of each. -/
theorem mapM_covers {α β : Type} (may : String → Prop) (names : β → List String)
    {read : α → Reading β}
    (each : ∀ a, (read a).Yields fun b mentioned => Covers may (names b) mentioned)
    (all : List α) :
    (all.mapM read).Yields fun results mentioned =>
      Covers may (results.flatMap names) mentioned := by
  induction all with
  | nil => exact .pure .nil
  | cons a rest ih =>
    rw [List.mapM_cons]
    refine (each a).bind ?_
    intro b mentioned covers
    refine ih.bind_pure ?_
    intro results further coversAll
    rw [List.flatMap_cons]
    exact covers.append coversAll

theorem generics_covers (view : HostView) (scope : List String) (path : String)
    (generics : List HostGeneric) : (view.generics scope path generics).Yields
      fun results mentioned =>
        Covers view.Admits ((results.filterMap (·.bound)).flatMap (·.names)) mentioned := by
  let names (generic : Generic) := generic.bound.toList.flatMap (·.names)
  refine (mapM_covers view.Admits names (fun generic => ?_) generics).imp
    fun results mentioned covers => ?_
  · dsimp only
    cases generic.bound with
    | none =>
      rw [pure_bind]
      exact .pure .nil
    | some signature =>
      have bounded : Yields
          (some <$> view.type scope (path ++ "<" ++ generic.name ++ ">") signature)
          fun bound mentioned =>
            Covers view.Admits (bound.toList.flatMap (·.names)) mentioned :=
        (view.type_covers scope _ signature).map fun type mentioned covers => by simpa using covers
      exact bounded.bind_pure fun _ _ covers => covers
  · apply covers.of_subset
    intro name member
    simp only [names, List.mem_flatMap, List.mem_filterMap, Option.mem_toList] at member ⊢
    obtain ⟨type, ⟨generic, known, bounded⟩, named⟩ := member
    exact ⟨generic, known, type, bounded, named⟩

theorem parameters_covers (view : HostView) (scope : List String) (path : String)
    (parameters : List HostParameter) : (view.parameters scope path parameters).Yields
      fun results mentioned => Covers view.Admits (results.flatMap (·.type.names)) mentioned := by
  apply mapM_covers view.Admits fun result : Parameter => result.type.names
  intro parameter
  exact (view.type_covers scope _ parameter.type).bind_pure fun _ _ covers => covers

theorem member_covers (view : HostView) (scope : List String) (owner : String)
    (member : HostMember) : (view.member scope owner member).Yields fun result mentioned =>
      Covers view.Admits (result.types.flatMap (·.names)) mentioned := by
  unfold HostView.member
  by_cases isMethod : member.isMethod = true
  · simp only [isMethod, if_true]
    refine (view.generics_covers _ _ member.generics).bind ?_
    intro generics mentioned first
    refine (view.parameters_covers _ _ member.parameters).bind ?_
    intro parameters further second
    rw [pure_bind]
    refine (view.type_covers _ _ member.type).bind_pure ?_
    intro type last third
    apply (first.append (second.append third)).of_subset
    intro name named
    simp only [Member.types, List.flatMap_cons, List.flatMap_append, List.flatMap_map,
      List.mem_append] at named ⊢
    tauto
  · simp only [isMethod, Bool.false_eq_true, if_false, pure_bind]
    exact (view.type_covers _ _ member.type).bind_pure
      fun _ _ covers => covers.of_subset (by simp [Member.types])

/-- What reading a host type may mention: types that may be declared, types declared inside it that
may be, and the enclosing type. -/
def MayMention (view : HostView) (type : HostType) (name : String) : Prop :=
  view.Admits name ∨
    (∃ inner ∈ type.nested, inner.name = name ∧ view.allow.contains name = true ∧
      inner.visibility.isApi = true) ∨
    (Name.outer? type.name).filter view.model.contains = some name

theorem mentions_covers (may : String → Prop) {names : List String}
    (allowed : ∀ name ∈ names, may name) :
    (names.forM Reading.mention).Yields fun _ mentioned => Covers may names mentioned := by
  induction names with
  | nil => exact .pure .nil
  | cons name rest ih =>
    change (Reading.mention name >>= fun _ => rest.forM Reading.mention).Yields _
    refine (mention_covers (allowed name List.mem_cons_self)).bind ?_
    intro _ mentioned covers _ further read
    have others := ih fun other later => allowed other (List.mem_cons_of_mem _ later)
    exact covers.append (others _ _ read)

theorem nested_covers (view : HostView) (type : HostType) :
    (view.nested type.nested).Yields fun names mentioned =>
      Covers (view.MayMention type) names mentioned := by
  unfold nested
  refine (mentions_covers (view.MayMention type) ?_).bind_pure fun _ _ covers => covers
  intro name member
  obtain ⟨inner, known, rfl⟩ := List.mem_map.1 member
  simp only [List.mem_filter, Bool.and_eq_true] at known
  exact Or.inr (Or.inl ⟨inner, known.1, rfl, known.2.2, known.2.1⟩)

theorem variants_covers (view : HostView) (owner : String) :
    ∀ variants, (view.variants owner variants).Yields fun names mentioned =>
      Covers view.Admits names mentioned
  | [] => .pure .nil
  | variant :: rest => by
    unfold HostView.variants
    split
    · exact yields_refuse
    cases found : view.admitted? variant with
    | none => exact view.variants_covers owner rest
    | some type =>
      refine (mention_covers (admits_of_admitted? found)).bind ?_
      intro _ mentioned covers
      exact (view.variants_covers owner rest).bind_pure fun _ _ others => covers.append others

/-- Reading a host type makes a node with its name, and mentions everything that the node names.
The types and variants that the node refers to may all be declared. -/
theorem node_covers (view : HostView) (type : HostType) :
    (view.node type).Yields fun node mentioned =>
      node.name = type.name ∧ node.index = 0 ∧
        (∀ name ∈ node.types.flatMap (·.names) ++ node.variants, view.Admits name) ∧
        Covers (view.MayMention type)
          (node.types.flatMap (·.names) ++ node.nested ++
            ((Name.outer? type.name).filter view.model.contains).toList ++ node.variants)
          mentioned := by
  have admitted : ∀ name, view.Admits name → view.MayMention type name := fun _ => Or.inl
  unfold HostView.node
  refine (view.generics_covers _ _ type.generics).bind ?_
  intro generics m₁ first
  refine (mapM_covers view.Admits ResolvedType.names (view.type_covers _ _) type.supertypes).bind ?_
  intro supertypes m₂ second
  refine (mapM_covers view.Admits (fun member : Member => member.types.flatMap (·.names))
    (view.member_covers _ _) (type.members.filter isListed)).bind ?_
  intro members m₃ third
  refine (view.nested_covers type).bind ?_
  intro nested m₄ fourth
  let types := supertypes.filter (fun supertype => supertype.name?.isSome) ++
    generics.filterMap (·.bound) ++ members.flatMap (·.types)
  -- The node leaves out supertypes, and lists its types in another order than it reads them.
  have named : Covers view.Admits (types.flatMap (·.names)) (m₁ ++ (m₂ ++ m₃)) := by
    apply (first.append (second.append third)).of_subset
    intro name member
    simp only [types, List.flatMap_append, List.flatMap_assoc, List.mem_append] at member ⊢
    have kept : name ∈ (supertypes.filter fun supertype => supertype.name?.isSome).flatMap
        (·.names) → name ∈ supertypes.flatMap (·.names) := by
      simp only [List.mem_flatMap, List.mem_filter]
      rintro ⟨type, ⟨known, -⟩, named⟩
      exact ⟨type, known, named⟩
    tauto
  have whole : ∀ {outers m₅}, Covers (view.MayMention type) outers m₅ →
      ∀ {variants m₆}, Covers view.Admits variants m₆ →
      (∀ name ∈ types.flatMap (·.names) ++ variants, view.Admits name) ∧
      Covers (view.MayMention type) (types.flatMap (·.names) ++ nested ++ outers ++ variants)
        (m₁ ++ (m₂ ++ (m₃ ++ (m₄ ++ (m₅ ++ m₆))))) := by
    intro outers m₅ fifth variants m₆ sixth
    refine ⟨fun name member => (named.append sixth).allowed_of_mem member, ?_⟩
    have all := (((named.mono admitted).append fourth).append fifth).append (sixth.mono admitted)
    simpa only [List.append_assoc] using all
  dsimp only
  cases found : (Name.outer? type.name).filter view.model.contains with
  | none =>
    exact (view.variants_covers type.name type.variants).bind_pure
      fun _ _ sixth => ⟨rfl, rfl, whole .nil sixth⟩
  | some outer =>
    have mayOuter : view.MayMention type outer := Or.inr (Or.inr found)
    refine (mention_covers mayOuter).bind ?_
    intro _ m₅ fifth
    exact (view.variants_covers type.name type.variants).bind_pure
      fun _ _ sixth => ⟨rfl, rfl, whole fifth sixth⟩

end HostView

end TypeBridge
