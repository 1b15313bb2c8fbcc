import TypeBridge.Proofs.ClosureWellFormed
import TypeBridge.Proofs.InheritedMembers
import TypeBridge.Proofs.WalkReachability

/-!
# The type variables of inherited members

A supertype is applied to one argument for each of its parameters, so replacing parameters by
arguments leaves none of them in an inherited member.  What can be left is a variable of a type
around the one that contributes the member: no reference gives an argument for it.
-/

namespace TypeBridge

namespace ResolvedType

variable {declared further : String → Prop} {bindings : Bindings}

/-- Every type variable of a type is declared. -/
def VarsIn (declared : String → Prop) (type : ResolvedType) : Prop :=
  ∀ name ∈ type.vars, declared name

theorem VarsIn.mono {type : ResolvedType} (varsIn : type.VarsIn declared)
    (more : ∀ name, declared name → further name) : type.VarsIn further :=
  fun name member => more name (varsIn name member)

theorem varsIn_named_iff {name : String} {args : List ResolvedType} :
    (named name args).VarsIn declared ↔ ∀ arg ∈ args, arg.VarsIn declared := by
  simp only [VarsIn, vars, mem_varsOfAll_iff]
  constructor
  · exact fun all arg member name mention => all name ⟨arg, member, mention⟩
  · rintro all name ⟨arg, member, mention⟩
    exact all arg member name mention

theorem varsIn_map_iff {key value : ResolvedType} :
    (map key value).VarsIn declared ↔ key.VarsIn declared ∧ value.VarsIn declared := by
  simp only [VarsIn, vars, List.forall_mem_append]

theorem WellFormed.varsIn {arity? : String → Option Nat} {type : ResolvedType}
    (wellFormed : type.WellFormed arity? declared) : type.VarsIn declared := by
  induction wellFormed with
  | named _ _ ih => exact varsIn_named_iff.2 ih
  | var known => simpa [VarsIn, vars] using known
  | map _ _ first second => exact varsIn_map_iff.2 ⟨first, second⟩
  | array _ ih | set _ ih | optional _ ih | anyBelow _ ih | anyAbove _ ih => exact ih
  | primitive | anything | unknown => simp [VarsIn, vars]

mutual

/-- Replacing variables leaves those that are declared already and those of the new types. -/
theorem varsIn_substitute (bound : ∀ pair ∈ bindings, pair.2.VarsIn declared) :
    ∀ type : ResolvedType,
      (type.VarsIn fun name => declared name ∨ name ∈ bindings.map (·.1)) →
        (type.substitute bindings).VarsIn declared
  | var name, varsIn => by
    rw [ResolvedType.substitute]
    cases found : bindings.lookup name with
    | none =>
      have unbound : name ∉ bindings.map (·.1) := by
        rintro member
        obtain ⟨pair, listed, rfl⟩ := List.mem_map.1 member
        simpa using List.lookup_eq_none_iff.1 found pair listed
      have known := (varsIn name (List.mem_singleton.2 rfl)).resolve_right unbound
      simpa [VarsIn, vars] using known
    | some type =>
      obtain ⟨front, back, rfl, -⟩ := List.lookup_eq_some_iff.1 found
      exact bound (name, type) (by simp)
  | named name args, varsIn => by
    rw [ResolvedType.substitute, varsIn_named_iff]
    exact varsIn_substituteAll bound args (varsIn_named_iff.1 varsIn)
  | map key value, varsIn => by
    obtain ⟨first, second⟩ := varsIn_map_iff.1 varsIn
    exact varsIn_map_iff.2
      ⟨varsIn_substitute bound key first, varsIn_substitute bound value second⟩
  | array element, varsIn | set element, varsIn | optional element, varsIn =>
    varsIn_substitute bound element varsIn
  | anyBelow inner, varsIn | anyAbove inner, varsIn => varsIn_substitute bound inner varsIn
  | primitive _, _ | anything, _ | unknown, _ => by
    simp [ResolvedType.substitute, VarsIn, vars]

theorem varsIn_substituteAll (bound : ∀ pair ∈ bindings, pair.2.VarsIn declared) :
    ∀ types : List ResolvedType,
      (∀ type ∈ types, type.VarsIn fun name => declared name ∨ name ∈ bindings.map (·.1)) →
        ∀ type ∈ substituteAll bindings types, type.VarsIn declared
  | [], _ => by simp [substituteAll]
  | type :: rest, varsIn => by
    rw [substituteAll, List.forall_mem_cons]
    rw [List.forall_mem_cons] at varsIn
    exact ⟨varsIn_substitute bound type varsIn.1, varsIn_substituteAll bound rest varsIn.2⟩

end

end ResolvedType

namespace Member

variable {declared further : String → Prop} {bindings : Bindings} {member : Member}

/-- Every type variable of a member is its own or is declared. -/
def VarsIn (declared : String → Prop) (member : Member) : Prop :=
  ∀ type ∈ member.types, type.VarsIn fun name => member.Binds name ∨ declared name

theorem VarsIn.mono (varsIn : member.VarsIn declared)
    (more : ∀ name, declared name → further name) : member.VarsIn further :=
  fun type listed => (varsIn type listed).mono fun name => Or.imp_right (more name)

theorem binds_substitute {name : String} :
    (member.substitute bindings).Binds name ↔ member.Binds name := by
  obtain ⟨_, kind, type, nullable, optional, doc⟩ := member
  cases kind with
  | field => rfl
  | method parameters generics => simp [substitute, Binds]

theorem mem_keys_visible {name : String} (hidden : ¬member.Binds name)
    (bound : name ∈ bindings.map (·.1)) : name ∈ (member.visible bindings).map (·.1) := by
  obtain ⟨_, kind, type, nullable, optional, doc⟩ := member
  cases kind with
  | field => exact bound
  | method parameters generics =>
    obtain ⟨pair, listed, rfl⟩ := List.mem_map.1 bound
    refine List.mem_map.2 ⟨pair, List.mem_filter.2 ⟨listed, ?_⟩, rfl⟩
    simpa [Binds] using hidden

theorem varsIn_substitute (bound : ∀ pair ∈ bindings, pair.2.VarsIn declared)
    (varsIn : member.VarsIn fun name => declared name ∨ name ∈ bindings.map (·.1)) :
    (member.substitute bindings).VarsIn declared := by
  intro type listed
  rw [types_substitute] at listed
  obtain ⟨original, known, rfl⟩ := List.mem_map.1 listed
  apply ResolvedType.varsIn_substitute
  · intro pair kept
    have argument := bound pair (member.visible_subset bindings pair kept)
    exact argument.mono fun _ => .inr
  · intro name mention
    rw [binds_substitute]
    by_cases own : member.Binds name
    · exact .inl (.inl own)
    rcases (varsIn original known name mention).resolve_left own with outer | replaced
    · exact .inl (.inr outer)
    · exact .inr (mem_keys_visible own replaced)

end Member

theorem Node.map_fst_bind {node : Node} {args : List ResolvedType}
    (arity : node.generics.length = args.length) :
    (node.bind args).map (·.1) = (node.generics.map (·.name)).reverse := by
  rw [bind, List.map_reverse, List.map_fst_zip (by simp [arity])]

namespace TypeGraph

/-- A type parameter of a node, or of a type around it or around one that it inherits from. -/
def Brings (graph : TypeGraph) (model : HostModel) (node : Node) (name : String) : Prop :=
  name ∈ node.generics.map (·.name) ∨
    ∃ origin, graph.Inherits node.name origin ∧ model.BindsAround origin name

/-- A node on the way up from another one, and what its type parameters stand for there. -/
structure IsAbove (graph : TypeGraph) (model : HostModel) (start : Node)
    (entry : Node × Bindings) : Prop where
  known : entry.1 ∈ graph.nodes
  inherits : graph.Inherits start.name entry.1.name
  parameters : ∀ name ∈ entry.1.generics.map (·.name),
    graph.Brings model start name ∨ name ∈ entry.2.map (·.1)
  arguments : ∀ pair ∈ entry.2, pair.2.VarsIn (graph.Brings model start)

variable {graph : TypeGraph} {model : HostModel} {start : Node}

theorem isAbove_self (known : start ∈ graph.nodes) : graph.IsAbove model start (start, []) where
  known := known
  inherits := .refl
  parameters _ own := .inl (.inl own)
  arguments := by simp

/-- What a node on the way declares is replaced, or brought along by the node at the start. -/
theorem IsAbove.brings {entry : Node × Bindings} (above : graph.IsAbove model start entry)
    {name : String} (declares : entry.1.Binds model name) :
    graph.Brings model start name ∨ name ∈ entry.2.map (·.1) := by
  rcases declares with own | around
  · exact above.parameters name own
  · exact .inl (.inr ⟨entry.1.name, above.inherits, around⟩)

variable (wellFormed : ∀ node ∈ graph.nodes, node.WellFormed graph.arity? model)
include wellFormed

/-- Members met on the way up from a type mention only variables that it brings along. -/
theorem climb_varsIn (start : Node) :
    graph.Climb (graph.IsAbove model start) (Member.VarsIn (graph.Brings model start)) where
  parents := by
    intro entry above parent member
    obtain ⟨args, inherits, known, bindings⟩ := exists_of_mem_parents member
    obtain ⟨-, formed⟩ := (wellFormed entry.1 above.known).supertypes _ inherits
    cases formed with
    | named arity each =>
      -- as many arguments as parameters, so every parameter of the parent is replaced
      have length : parent.1.generics.length = (args.map (·.substitute entry.2)).length := by
        rw [arity?, get?_eq_some_iff.2 ⟨known, rfl⟩] at arity
        simpa using arity
      refine ⟨known, ?_, ?_, ?_⟩
      · refine above.inherits.tail (extends_iff.2 ⟨entry.1, above.known, rfl, ?_⟩)
        exact List.mem_filterMap.2 ⟨_, inherits, rfl⟩
      · intro name own
        rw [bindings, Node.map_fst_bind length, List.mem_reverse]
        exact .inr own
      · intro pair listed
        rw [bindings, Node.bind, List.mem_reverse] at listed
        obtain ⟨arg, given, same⟩ := List.mem_map.1 (List.of_mem_zip listed).2
        rw [← same]
        exact ResolvedType.varsIn_substitute above.arguments arg
          ((each arg given).varsIn.mono fun _ => above.brings)
  members := by
    intro entry above member listed
    refine Member.varsIn_substitute above.arguments fun type mentioned => ?_
    have formed := (wellFormed entry.1 above.known).members member listed type mentioned
    exact formed.varsIn.mono fun name => Or.imp_right above.brings

end TypeGraph

end TypeBridge
