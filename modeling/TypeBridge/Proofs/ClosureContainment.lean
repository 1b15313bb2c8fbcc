import Mathlib
import TypeBridge.Proofs.DeclaredTypes
import TypeBridge.Proofs.PassStages

/-!
# Which types of a closure may be declared

All places that queue a type look whether it may be declared, but for the one that queues the
enclosing type.  So a closure holds types that may be declared, and types around them.
-/

namespace TypeBridge

namespace HostModel

/-- Some types with everything declared inside them. -/
def IsNested (types : List HostType) : Prop :=
  ∀ type ∈ types, ∀ inner ∈ type.nested, inner ∈ types

theorem mem_families {types : List HostType} {type : HostType} (member : type ∈ types) :
    type ∈ families types := by
  induction types with
  | nil => simp at member
  | cons first rest ih =>
    rw [families, List.mem_append]
    rcases List.mem_cons.1 member with rfl | later
    · exact Or.inl (family_eq type ▸ List.mem_cons_self)
    · exact Or.inr (ih later)

theorem IsNested.append {one other : List HostType} (first : IsNested one)
    (second : IsNested other) : IsNested (one ++ other) := by
  intro type member inner declared
  rcases List.mem_append.1 member with left | right
  · exact List.mem_append_left _ (first type left inner declared)
  · exact List.mem_append_right _ (second type right inner declared)

mutual

theorem isNested_family : ∀ type : HostType, IsNested type.family
  | ⟨name, span, kind, visibility, doc, generics, supertypes, members, constructors, nested,
      closed, variants, constants, annotations⟩ => by
    intro type member inner declared
    rw [family_eq] at member ⊢
    rcases List.mem_cons.1 member with rfl | inside
    · exact List.mem_cons_of_mem _ (mem_families declared)
    · exact List.mem_cons_of_mem _ (isNested_families nested type inside inner declared)

theorem isNested_families : ∀ types : List HostType, IsNested (families types)
  | [] => by simp [IsNested, families]
  | type :: rest => by
    rw [families]
    exact (isNested_family type).append (isNested_families rest)

end

theorem Merge.types_add {file : String} {merge next : Merge} {type : HostType}
    (added : merge.add file type = .ok next) :
    next.model.types = merge.model.types ++ [type] := by
  unfold add at added
  split at added
  · cases added
  · cases added
    rfl

theorem types_foldlM_add {file : String} {merge final : Merge} {types : List HostType}
    (merged : types.foldlM (Merge.add file) merge = .ok final) :
    final.model.types = merge.model.types ++ types := by
  induction types generalizing merge with
  | nil =>
    cases merged
    simp
  | cons type rest ih =>
    rw [List.foldlM_cons] at merged
    obtain ⟨next, added, others⟩ := Outcome.bind_eq_ok_iff.1 merged
    rw [ih others, Merge.types_add added, List.append_assoc, List.singleton_append]

/-- The model of some sources holds everything declared inside its types. -/
theorem isNested_of_ofSources {sources : List (String × String)} {model : HostModel}
    (loaded : ofSources sources = .ok model) : IsNested model.types := by
  obtain ⟨merge, merged, same⟩ := Outcome.bind_eq_ok_iff.1 loaded
  cases same
  refine Outcome.foldlM_preserves (fun merge => IsNested merge.model.types) ?_ merged
    (by simp [IsNested, empty])
  intro source before after added nested
  rw [Merge.addFile_eq] at added
  obtain ⟨types, -, folded⟩ := Outcome.bind_eq_ok_iff.1 added
  rw [types_foldlM_add folded]
  exact nested.append (isNested_families types)

end HostModel

namespace Name

theorem outerChars_eq (name : List Char) :
    outerChars name =
      ((beforeLast? '$' name).map fun parent => parent :: outerChars parent).getD [] := by
  rw [outerChars]
  split
  · next none => rw [none]; rfl
  · next parent found => rw [found]; rfl

theorem mem_outerChars_of_beforeLast? {name inner outer : List Char}
    (around : inner ∈ name :: outerChars name) (found : beforeLast? '$' inner = some outer) :
    outer ∈ outerChars name := by
  induction name using outerChars.induct with
  | case1 name none =>
    rw [outerChars_eq, none] at around
    obtain rfl : inner = name := by simpa using around
    rw [none] at found
    cases found
  | case2 name parent first ih =>
    rw [outerChars_eq, first] at around ⊢
    rcases List.mem_cons.1 around with rfl | later
    · rw [first] at found
      cases found
      exact List.mem_cons_self
    · exact List.mem_cons_of_mem _ (ih later)

/-- The enclosing type of a name, or of a type around it, is a type around the name. -/
theorem mem_outers_of_outer? {name inner outer : String} (around : inner ∈ name :: outers name)
    (found : outer? inner = some outer) : outer ∈ outers name := by
  obtain ⟨chars, before, rfl⟩ := Option.map_eq_some_iff.1 found
  apply List.mem_map_of_mem
  refine mem_outerChars_of_beforeLast? ?_ before
  rcases List.mem_cons.1 around with rfl | later
  · exact List.mem_cons_self
  · obtain ⟨chars', member, rfl⟩ := List.mem_map.1 later
    rw [String.toList_ofList]
    exact List.mem_cons_of_mem _ member

end Name

namespace HostView

variable {view : HostView} {roots : List String} {graph : TypeGraph}

/-- A type mentions types that may be declared, and the type around it. -/
theorem Mentions.admits_or_outer {a b : String} (mentions : view.Mentions a b)
    (nested : HostModel.IsNested view.model.types) :
    view.Admits b ∨ Name.outer? a = some b := by
  obtain ⟨type, node, mentioned, found, reading, wanted, -⟩ := mentions
  obtain ⟨known, rfl⟩ := HostModel.get?_eq_some_iff.1 found
  obtain ⟨-, -, -, covers⟩ := view.node_covers type node mentioned reading
  rcases covers.allowed b wanted with admitted | ⟨inner, declared, rfl, allowed⟩ | outer
  · exact Or.inl admitted
  · have inModel := nested type known inner declared
    exact Or.inl ⟨inner, HostModel.get?_eq_some_iff.2 ⟨inModel, rfl⟩, allowed⟩
  · exact Or.inr (Option.filter_eq_some_iff.1 outer).1

/-- Reading a type of the model mentions the type around it, if the model has one. -/
theorem IsClosure.mem_of_outer? (closure : IsClosure view roots graph) {name outer : String}
    (known : name ∈ graph.names) (around : Name.outer? name = some outer)
    (inModel : view.model.contains outer = true) : outer ∈ graph.names := by
  obtain ⟨node, member, rfl⟩ := List.mem_map.1 known
  obtain ⟨type, mentioned, found, reading⟩ := closure.read node member
  obtain ⟨sameName, -, -, covers⟩ := view.node_covers type _ mentioned reading
  have wanted : outer ∈ mentioned := by
    apply covers.subset
    apply List.mem_append_left
    apply List.mem_append_right
    rw [Option.mem_toList, Option.filter_eq_some_iff]
    exact ⟨sameName ▸ around, inModel⟩
  have inNames : outer ∈ view.model.names := HostModel.contains_iff.1 inModel
  exact closure.mem_of_mentions known ⟨type, _, mentioned, found, reading, wanted, inNames⟩

section

variable (closure : IsClosure view roots graph)
  (nested : HostModel.IsNested view.model.types)
  (rooted : ∀ root ∈ roots, root ∈ view.model.names → view.Admits root)
include closure nested rooted

/-- Every type of a closure may be declared or stands around one that may. -/
theorem IsClosure.admits_or_around {name : String} (known : name ∈ graph.names) :
    view.Admits name ∨ ∃ inner ∈ graph.names, view.Admits inner ∧ name ∈ Name.outers inner := by
  have needed := (closure.mem_names_iff name).1 known
  clear known
  induction needed with
  | root listed known => exact Or.inl (rooted _ listed known)
  | @mention a b needed mentions ih =>
    rcases mentions.admits_or_outer nested with admitted | outer
    · exact Or.inl admitted
    · have member := (closure.mem_names_iff a).2 needed
      rcases ih with admitted | ⟨inner, known, admitted, around⟩
      · exact Or.inr ⟨a, member, admitted, Name.mem_outers_of_outer? List.mem_cons_self outer⟩
      · exact Or.inr ⟨inner, known, admitted,
          Name.mem_outers_of_outer? (List.mem_cons_of_mem _ around) outer⟩

/-- All types of a closure may be declared exactly when those around its types may. -/
theorem IsClosure.admits_all_iff :
    (∀ name ∈ graph.names, view.Admits name) ↔
      ∀ name ∈ graph.names, view.Admits name → ∀ outer, Name.outer? name = some outer →
        view.model.contains outer = true → view.Admits outer := by
  constructor
  · intro all name known _ outer around inModel
    exact all outer (closure.mem_of_outer? known around inModel)
  · intro outers name known
    have needed := (closure.mem_names_iff name).1 known
    clear known
    induction needed with
    | root listed known => exact rooted _ listed known
    | @mention a b needed mentions ih =>
      rcases mentions.admits_or_outer nested with admitted | outer
      · exact admitted
      · have member := (closure.mem_names_iff a).2 needed
        obtain ⟨_, _, _, -, -, -, inModel⟩ := mentions
        exact outers a member ih b outer (HostModel.contains_iff.2 inModel)

end

end HostView

/-- The types of a model's closure may all be declared exactly when those directly around such types
may be.  In any case each of them may be declared or stands around one that may, and only they are
declared. -/
theorem closure_contained_iff {sources : List (String × String)} {model : HostModel}
    {config : Config} {session : Session} (loaded : HostModel.ofSources sources = .ok model)
    (resolved : (Session.start config model).discover.resolve = .ok session) :
    ∃ graph, session.graph? = some graph ∧
      ((∀ node ∈ graph.nodes, (config.viewOf model).Admits node.name) ↔
        ∀ node ∈ graph.nodes, (config.viewOf model).Admits node.name →
          ∀ outer, Name.outer? node.name = some outer → model.contains outer = true →
            (config.viewOf model).Admits outer) ∧
      (∀ node ∈ graph.nodes, (config.viewOf model).Admits node.name ∨
        ∃ inner ∈ graph.nodes, (config.viewOf model).Admits inner.name ∧
          node.name ∈ Name.outers inner.name) ∧
      ∀ order unit, graph.declareAll config.emit order = .ok unit →
        ∀ declaration ∈ unit.declarations, ∃ node ∈ graph.nodes,
          node.name = declaration.qualified := by
  obtain ⟨graph, closed, rfl⟩ := Session.resolve_discover_eq_ok_iff.1 resolved
  have closure := HostView.isClosure_of_closure closed
  have nested : HostModel.IsNested (config.viewOf model).model.types :=
    HostModel.isNested_of_ofSources loaded
  have rooted : ∀ root ∈ config.rootsOf model, root ∈ (config.viewOf model).model.names →
      (config.viewOf model).Admits root :=
    fun root found _ => Discovery.admits_of_mem_rootsOf found
  have admitsAll := closure.admits_all_iff nested rooted
  simp only [TypeGraph.names, List.forall_mem_map] at admitsAll
  refine ⟨graph, rfl, admitsAll, ?_, ?_⟩
  · intro node known
    rcases closure.admits_or_around nested rooted (List.mem_map_of_mem known) with
      admitted | ⟨inner, member, admitted, around⟩
    · exact Or.inl admitted
    · obtain ⟨innerNode, inside, rfl⟩ := List.mem_map.1 member
      exact Or.inr ⟨innerNode, inside, admitted, around⟩
  · intro order unit succeeds declaration member
    obtain ⟨⟨group, node⟩, place, declared⟩ :=
      exists_of_forall₂ (TypeGraph.forall₂_isDeclared succeeds) member
    exact ⟨node, (TypeGraph.mem_places_iff.1 place).2, declared.qualified.symm⟩

/-- The types of the closure for some sources, each with whether it may be declared. -/
def closureStanding (config : Config) (sources : List (String × String)) :
    Option (List (String × Bool)) := do
  let model ← (HostModel.ofSources sources).toOption
  let session ← (Session.start config model).discover.resolve.toOption
  let graph ← session.graph?
  return graph.names.map fun name => (name, ((config.viewOf model).admitted? name).isSome)

/-- A type inside of another one. -/
def nestedSource : List (String × String) :=
  [("m.toml", "[[types]]\nname=\"O\"\n[[types.nested]]\nname=\"O$I\"")]

/-- Declare the inner type, from a namespace. -/
def innerFrom (outside : String) : Config :=
  { Config.plain with models := ["m.toml"], allow := ⟨[outside]⟩, roots := ["O$I"] }

theorem exists_of_closureStanding {config : Config} {sources : List (String × String)}
    {standing : List (String × Bool)} (evaluated : closureStanding config sources = some standing) :
    ∃ model session graph, HostModel.ofSources sources = .ok model ∧
      (Session.start config model).discover.resolve = .ok session ∧
      session.graph? = some graph ∧
      (graph.names.map fun name => (name, ((config.viewOf model).admitted? name).isSome)) =
        standing := by
  obtain ⟨model, loaded, rest⟩ := Option.bind_eq_some_iff.1 evaluated
  obtain ⟨session, resolved, rest⟩ := Option.bind_eq_some_iff.1 rest
  obtain ⟨graph, known, rest⟩ := Option.bind_eq_some_iff.1 rest
  exact ⟨model, session, graph, Outcome.toOption_eq_some_iff.1 loaded,
    Outcome.toOption_eq_some_iff.1 resolved, known, Option.some.inj rest⟩

/-- With the namespace of the outer type both types may be declared. -/
theorem nestedSource_contained :
    ∃ model session graph, HostModel.ofSources nestedSource = .ok model ∧
      (Session.start (innerFrom "O") model).discover.resolve = .ok session ∧
      session.graph? = some graph ∧
      (∀ node ∈ graph.nodes, ((innerFrom "O").viewOf model).Admits node.name) ∧
      ∀ node ∈ graph.nodes, ((innerFrom "O").viewOf model).Admits node.name →
        ∀ outer, Name.outer? node.name = some outer → model.contains outer = true →
          ((innerFrom "O").viewOf model).Admits outer := by
  have evaluated : closureStanding (innerFrom "O") nestedSource =
      some [("O$I", true), ("O", true)] := by
    cbv
  obtain ⟨model, session, graph, loaded, resolved, known, standing⟩ :=
    exists_of_closureStanding evaluated
  obtain ⟨graph', known', contained, -⟩ := closure_contained_iff loaded resolved
  obtain rfl := Option.some.inj (known.symm.trans known')
  have all : ∀ node ∈ graph.nodes, ((innerFrom "O").viewOf model).Admits node.name := by
    intro node member
    have entry : (node.name, (((innerFrom "O").viewOf model).admitted? node.name).isSome) ∈
        [("O$I", true), ("O", true)] := by
      rw [← standing]
      exact List.mem_map_of_mem (List.mem_map_of_mem member)
    apply HostView.isSome_admitted?_iff.1
    simp only [List.mem_cons, Prod.mk.injEq, List.not_mem_nil, or_false] at entry
    rcases entry with ⟨-, flag⟩ | ⟨-, flag⟩ <;> exact flag
  exact ⟨model, session, graph, loaded, resolved, known, all, contained.1 all⟩

/-- With the namespace of the inner type alone the outer type is in the closure nevertheless. -/
theorem nestedSource_not_contained :
    ∃ model session graph, (innerFrom "O$I").brokenRule? = none ∧
      HostModel.ofSources nestedSource = .ok model ∧
      (Session.start (innerFrom "O$I") model).discover.resolve = .ok session ∧
      session.graph? = some graph ∧
      ∃ node ∈ graph.nodes, (innerFrom "O$I").allow.contains node.name = false := by
  have evaluated : closureStanding (innerFrom "O$I") nestedSource =
      some [("O$I", true), ("O", false)] := by
    cbv
  obtain ⟨model, session, graph, loaded, resolved, known, standing⟩ :=
    exists_of_closureStanding evaluated
  have entry : ("O", false) ∈ graph.names.map fun name =>
      (name, (((innerFrom "O$I").viewOf model).admitted? name).isSome) := by
    rw [standing]
    decide
  obtain ⟨name, member, same⟩ := List.mem_map.1 entry
  obtain ⟨node, inside, rfl⟩ := List.mem_map.1 member
  refine ⟨model, session, graph, by decide, loaded, resolved, known, node, inside, ?_⟩
  rw [(Prod.mk.inj same).1]
  decide

end TypeBridge
