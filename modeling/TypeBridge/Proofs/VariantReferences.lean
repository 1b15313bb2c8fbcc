import Mathlib.Data.List.Basic
import TypeBridge.Proofs.EmissionTopology
import TypeBridge.Proofs.UnknownArguments

/-!
# References from unions to their variants

The union of a closed type refers to a variant by inverting the supertype reference of the variant:
a parameter that the variant passes on is spelled as the parameter of the closed type that receives
it.  Where the variant passes on parameters of its own only, each once, applying the variant as the
union does makes its supertype reference the closed type with its own parameters in order.
-/

namespace TypeBridge

/-- A function of keys, as a table, finds its values. -/
theorem Bindings.lookup_map_pair (value : String → ResolvedType) {keys : List String}
    {name : String} (known : name ∈ keys) :
    List.lookup name (keys.map fun key => (key, value key)) = some (value name) := by
  induction keys with
  | nil => cases known
  | cons first rest ih =>
    rw [List.map_cons, List.lookup_cons]
    by_cases same : name = first
    · rw [beq_iff_eq.2 same, same]
    · rw [beq_eq_false_iff_ne.2 same]
      exact ih ((List.mem_cons.1 known).resolve_left same)

namespace Node

variable {closed node : Node} {name : String}

theorem argumentsFor?_eq_some {before after : List ResolvedType} {args : List ResolvedType}
    (supertypes : node.supertypes = before ++ .named name args :: after)
    (first : ∀ type ∈ before, type.name? ≠ some name) : node.argumentsFor? name = some args := by
  rw [argumentsFor?, supertypes, List.findSome?_append, List.findSome?_eq_none_iff.2]
  · simp
  · intro type listed
    have other := first type listed
    cases type with
    | named head args => exact if_neg fun same => other (congrArg some same)
    | _ => rfl

/-- A node that is applied to a function of its parameters binds them by it. -/
theorem lookup_bind (value : String → ResolvedType) (known : name ∈ node.generics.map (·.name)) :
    (node.bind (node.generics.map fun generic => value generic.name)).lookup name =
      some (value name) := by
  have table : node.bind (node.generics.map fun generic => value generic.name) =
      (node.generics.map (·.name)).reverse.map fun name => (name, value name) := by
    rw [bind, List.zip_map', ← List.map_reverse, ← List.map_reverse, List.map_map]
    rfl
  rw [table]
  exact Bindings.lookup_map_pair value (List.mem_reverse.2 known)

end Node

namespace TypeGraph

variable {graph : TypeGraph} {closed node : Node}

theorem received_eq_unknown_or (closed : Node) (passed : List ResolvedType) (parameter : String) :
    received closed passed parameter = .unknown ∨
      ∃ generic ∈ closed.generics, received closed passed parameter = .var generic.name := by
  unfold received
  split
  · next generic found =>
    obtain ⟨position, -, listed⟩ := Option.bind_eq_some_iff.1 found
    exact .inr ⟨generic, List.mem_of_getElem? listed, rfl⟩
  · exact .inl rfl

/-- Variables that are passed on once each are spelled as the parameters that receive them. -/
theorem map_received {vars : List String} (distinct : vars.Nodup)
    (length : vars.length = closed.generics.length) :
    vars.map (received closed (vars.map .var)) = closed.generics.map (.var ·.name) := by
  apply List.ext_getElem
  · simpa using length
  · intro i inside inside'
    rw [List.length_map] at inside inside'
    have position : (vars.map ResolvedType.var).findIdx? (· == .var vars[i]) = some i := by
      rw [List.findIdx?_eq_some_iff_getElem]
      refine ⟨by simpa using inside, by simp, fun j before => ?_⟩
      have differs : vars[j] ≠ vars[i] := fun same =>
        absurd ((distinct.getElem_inj_iff).1 same) (Nat.ne_of_lt before)
      simpa using differs
    rw [List.getElem_map, List.getElem_map, received, position, Option.bind_some,
      List.getElem?_eq_getElem inside']

/-- The supertype reference of a variant that is applied as the union applies it. -/
theorem substitute_bind_received {vars : List String} (distinct : vars.Nodup)
    (own : ∀ name ∈ vars, name ∈ node.generics.map (·.name))
    (length : vars.length = closed.generics.length) :
    (ResolvedType.named closed.name (vars.map .var)).substitute
        (node.bind (node.generics.map fun generic =>
          received closed (vars.map .var) generic.name)) =
      .named closed.name (closed.generics.map (.var ·.name)) := by
  have replaced : ∀ name ∈ vars,
      (ResolvedType.var name).substitute (node.bind (node.generics.map fun generic =>
        received closed (vars.map .var) generic.name)) = received closed (vars.map .var) name := by
    intro name listed
    rw [ResolvedType.substitute,
      Node.lookup_bind (received closed (vars.map .var)) (own name listed)]
    rfl
  rw [ResolvedType.substitute, ResolvedType.substituteAll_eq_map, List.map_map,
    ← map_received distinct length]
  exact congrArg _ (List.map_congr_left replaced)

/-- The union of a closed type applies a variant to as many types as it has parameters, each of them
unknown or a parameter of the closed type.  If the first supertype reference of the variant to the
closed type passes on variables that are parameters of the variant, each once and as many as the
closed type has parameters, then under these types it is the closed type with its own parameters in
order. -/
theorem variant_references_invert (closed : Node) (known : node ∈ graph.nodes) :
    ∃ args, graph.variantReference closed node.name = .named node.name args ∧
      args.length = node.generics.length ∧
      (∀ arg ∈ args, arg = .unknown ∨ ∃ received ∈ closed.generics, arg = .var received.name) ∧
      (∀ (before after : List ResolvedType) (vars : List String),
        node.supertypes = before ++ .named closed.name (vars.map .var) :: after →
        (∀ type ∈ before, type.name? ≠ some closed.name) →
        vars.Nodup → (∀ name ∈ vars, name ∈ node.generics.map (·.name)) →
        vars.length = closed.generics.length →
        (ResolvedType.named closed.name (vars.map .var)).substitute (node.bind args) =
          .named closed.name (closed.generics.map (.var ·.name))) ∧
      ∀ config : EmitConfig, closed.isEnum = false → closed.isClosed = true →
        ∃ parameters references, (graph.draw config closed).1 = .union parameters references ∧
          ∀ i : Nat, closed.variants[i]? = some node.name →
            references[i]? = some (ResolvedType.named node.name args).spell := by
  refine ⟨_, variantReference_eq (get?_eq_some_iff.2 ⟨known, rfl⟩), by simp, ?_, ?_, ?_⟩
  · intro arg listed
    obtain ⟨generic, -, rfl⟩ := List.mem_map.1 listed
    exact received_eq_unknown_or closed _ _
  · intro before after vars supertypes first distinct own length
    rw [Node.argumentsFor?_eq_some supertypes first, Option.getD_some]
    exact substitute_bind_received distinct own length
  · intro config notEnum isClosed
    rw [draw, notEnum, isClosed]
    refine ⟨_, _, rfl, fun i listed => ?_⟩
    rw [List.getElem?_map, listed, Option.map_some,
      variantReference_eq (get?_eq_some_iff.2 ⟨known, rfl⟩)]

/-- A closed type with two parameters. -/
def pairBase : Node :=
  { bareNode "Base" [] [] with
    generics := [⟨"K", none, none⟩, ⟨"V", none, none⟩], variants := ["Pair"] }

/-- A variant that passes on two of its parameters in the opposite order. -/
def swappedPair : Node :=
  { bareNode "Pair" [] [] with
    generics := [⟨"A", none, none⟩, ⟨"B", none, none⟩, ⟨"C", none, none⟩]
    supertypes := [.named "Base" [.var "B", .var "A"]] }

def swappedPairs : TypeGraph where
  nodes := [pairBase, swappedPair]
  distinct := by simp [pairBase, swappedPair, bareNode]

/-- The union spells the parameters in the opposite order, and the one that is not passed on is
unknown; so the variant extends the closed type as it stands. -/
theorem swappedPairs_inverted :
    swappedPair ∈ swappedPairs.nodes ∧
      swappedPairs.variantReference pairBase "Pair" =
        .named "Pair" [.var "V", .var "K", .unknown] ∧
      (ResolvedType.named "Base" [.var "B", .var "A"]).substitute
          (swappedPair.bind [.var "V", .var "K", .unknown]) =
        .named "Base" [.var "K", .var "V"] := by
  have known : swappedPair ∈ swappedPairs.nodes := by simp [swappedPairs]
  have reference : swappedPairs.variantReference pairBase "Pair" =
      .named "Pair" [.var "V", .var "K", .unknown] := by cbv
  obtain ⟨args, same, -, -, inverts, -⟩ := variant_references_invert pairBase known
  obtain rfl : args = [.var "V", .var "K", .unknown] :=
    (ResolvedType.named.inj (same.symm.trans reference)).2
  refine ⟨known, reference, ?_⟩
  exact inverts [] [] ["B", "A"] rfl (by simp) (by decide) (by decide) rfl

end TypeGraph

end TypeBridge
