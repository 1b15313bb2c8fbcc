import TypeBridge.Proofs.InheritedVariables
import TypeBridge.Proofs.MemberInheritance

/-!
# Which type variables inherited methods capture

A member is inherited with the types that the parameters of its type stand for.  The type parameters
of a generic method hide parameters of the same name, so these are left alone.  The other way round
nothing is done: where a type that is put into a method mentions a variable with the name of one of
the method's type parameters, the method captures it.  Apart from that, the free type variables of
an inherited member are exactly those that are put in place of the free ones of the declared member.
-/

namespace TypeBridge

open Relation

/-- The type variables that take the place of one: those of the type bound to it, or the variable
itself where none is bound. -/
def Bindings.varsFor (bindings : Bindings) (name : String) : List String :=
  (bindings.lookup name).elim [name] (·.vars)

theorem Bindings.lookup_filter (keeps : String → Bool) (bindings : Bindings) (name : String) :
    (bindings.filter fun (bound, _) => keeps bound).lookup name =
      if keeps name = true then bindings.lookup name else none := by
  induction bindings with
  | nil => simp
  | cons first rest ih =>
    obtain ⟨bound, type⟩ := first
    rw [List.filter_cons, List.lookup_cons]
    by_cases same : name = bound
    · subst same
      by_cases kept : keeps name = true
      · simp [kept]
      · simp [kept, ih]
    · by_cases kept : keeps bound = true
      · simp [kept, List.lookup_cons, beq_eq_false_iff_ne.2 same, ih]
      · simp [kept, beq_eq_false_iff_ne.2 same, ih]

namespace ResolvedType

variable {bindings : Bindings} {name : String}

mutual

/-- The type variables of a type after replacing, by those before. -/
theorem mem_vars_substitute_iff : ∀ type : ResolvedType,
    name ∈ (type.substitute bindings).vars ↔ ∃ old ∈ type.vars, name ∈ bindings.varsFor old
  | var old => by
    cases found : bindings.lookup old <;>
      simp [ResolvedType.substitute, Bindings.varsFor, found, vars]
  | named _ args => mem_varsOfAll_substituteAll_iff args
  | array element | set element | optional element => mem_vars_substitute_iff element
  | map key value => by
    simp only [ResolvedType.substitute, vars, List.mem_append, mem_vars_substitute_iff key,
      mem_vars_substitute_iff value, or_and_right, exists_or]
  | anyBelow bound | anyAbove bound => mem_vars_substitute_iff bound
  | primitive _ | anything | unknown => by simp [ResolvedType.substitute, vars]

theorem mem_varsOfAll_substituteAll_iff : ∀ types : List ResolvedType,
    name ∈ varsOfAll (substituteAll bindings types) ↔
      ∃ old ∈ varsOfAll types, name ∈ bindings.varsFor old
  | [] => by simp [substituteAll, varsOfAll]
  | type :: rest => by
    simp only [substituteAll, varsOfAll, List.mem_append, mem_vars_substitute_iff type,
      mem_varsOfAll_substituteAll_iff rest, or_and_right, exists_or]

end

end ResolvedType

namespace Member

variable {member : Member} {bindings : Bindings} {name : String}

/-- A type variable stands free in a member: it is mentioned, and is no type parameter of it. -/
def IsFree (member : Member) (name : String) : Prop :=
  ¬ member.Binds name ∧ ∃ type ∈ member.types, name ∈ type.vars

/-- The type parameters of a method hide what is bound to variables of their names. -/
theorem varsFor_visible_of_binds (binds : member.Binds name) :
    (member.visible bindings).varsFor name = [name] := by
  obtain ⟨_, kind, type, nullable, optional, doc⟩ := member
  cases kind with
  | field => cases binds
  | method parameters generics =>
    have hidden : generics.any (·.name == name) = true := by simpa [Binds] using binds
    have unbound := bindings.lookup_filter (fun name => !generics.any (·.name == name)) name
    simp only [hidden, Bool.not_true, Bool.false_eq_true, if_false] at unbound
    simp [visible, Bindings.varsFor, unbound]

theorem varsFor_visible_of_not_binds (free : ¬ member.Binds name) :
    (member.visible bindings).varsFor name = bindings.varsFor name := by
  obtain ⟨_, kind, type, nullable, optional, doc⟩ := member
  cases kind with
  | field => rfl
  | method parameters generics =>
    have shown : generics.any (·.name == name) = false := by simpa [Binds] using free
    have same := bindings.lookup_filter (fun name => !generics.any (·.name == name)) name
    simp only [shown, Bool.not_false, if_true] at same
    simp [visible, Bindings.varsFor, same]

/-- What is put in place of the free type variables of a member stands free in the result, unless
the member binds a variable of that name. -/
theorem isFree_substitute_iff :
    (member.substitute bindings).IsFree name ↔
      (∃ old, member.IsFree old ∧ name ∈ bindings.varsFor old) ∧ ¬ member.Binds name := by
  rw [IsFree, binds_substitute, types_substitute, and_comm]
  refine and_congr_left fun unbound => ?_
  simp only [List.mem_map, exists_exists_and_eq_and, ResolvedType.mem_vars_substitute_iff]
  constructor
  · rintro ⟨type, listed, old, mentioned, stands⟩
    have free : ¬ member.Binds old := by
      intro binds
      rw [varsFor_visible_of_binds binds, List.mem_singleton] at stands
      exact unbound (stands ▸ binds)
    rw [varsFor_visible_of_not_binds free] at stands
    exact ⟨old, ⟨free, type, listed, mentioned⟩, stands⟩
  · rintro ⟨old, ⟨free, type, listed, mentioned⟩, stands⟩
    exact ⟨type, listed, old, mentioned, by rwa [varsFor_visible_of_not_binds free]⟩

/-- A type parameter of a member has the name of a type variable that is put into the member. -/
def Captures (member : Member) (bindings : Bindings) (name : String) : Prop :=
  member.Binds name ∧ ∃ old, member.IsFree old ∧ name ∈ bindings.varsFor old

end Member

namespace TypeGraph

variable {graph : TypeGraph} {node : Node} {member : Member}

/-- A member is one that a type on the way up declares, with what parameters stand for there. -/
structure IsInstance (graph : TypeGraph) (node : Node) (member : Member)
    (entry : Node × Bindings) (declared : Member) : Prop where
  path : ReflTransGen graph.Ascends (node, []) entry
  declares : declared ∈ entry.1.members
  eq_substitute : member = declared.substitute entry.2

theorem climb_isInstance (graph : TypeGraph) (node : Node) :
    graph.Climb (ReflTransGen graph.Ascends (node, [])) fun member =>
      ∃ entry declared, graph.IsInstance node member entry declared where
  parents _ path _ ascends := path.tail ascends
  members entry path declared listed := ⟨entry, declared, path, listed, rfl⟩

theorem IsInstance.isFree_iff {entry : Node × Bindings} {declared : Member}
    (isInstance : graph.IsInstance node member entry declared) (name : String) :
    member.IsFree name ↔
      (∃ old, declared.IsFree old ∧ name ∈ entry.2.varsFor old) ∧
        ¬ declared.Captures entry.2 name := by
  rw [isInstance.eq_substitute, Member.isFree_substitute_iff]
  exact and_congr_right fun stands => not_congr (iff_self_and.2 fun _ => stands)

/-- Every member that a type ends up with is an instance of a declared one, and its free type
variables are those put in place of the free ones there, less those that the member captures.  So
they are exactly the ones put in place just when nothing is captured. -/
theorem free_variables_iff
    (listed : member ∈ (graph.allMembers node).members ++ (graph.variantMembers node).members) :
    (∃ entry declared, graph.IsInstance node member entry declared) ∧
      ∀ entry declared, graph.IsInstance node member entry declared →
        (∀ name, member.IsFree name ↔
          (∃ old, declared.IsFree old ∧ name ∈ entry.2.varsFor old) ∧
            ¬ declared.Captures entry.2 name) ∧
        ((∀ name, member.IsFree name ↔
            ∃ old, declared.IsFree old ∧ name ∈ entry.2.varsFor old) ↔
          ∀ name, ¬ declared.Captures entry.2 name) := by
  refine ⟨?_, fun entry declared isInstance => ⟨isInstance.isFree_iff, ?_⟩⟩
  · have climb := graph.climb_isInstance node
    rcases List.mem_append.1 listed with ofAll | ofVariant
    · exact (climb.allMembers .refl).of_mem ofAll
    · exact (climb.variantMembers .refl).of_mem ofVariant
  constructor
  · intro agree name captures
    exact ((isInstance.isFree_iff name).1 ((agree name).2 captures.2)).2 captures
  · intro none name
    rw [isInstance.isFree_iff, and_iff_left (none name)]

/-- A generic method that takes a value of its type's own parameter. -/
def convert : Member where
  name := "convert"
  kind := .method [⟨"x", .var "T", false⟩] [⟨"U", none, none⟩]
  type := .var "U"
  nullable := false
  optional := false
  doc := none

def converter : Node :=
  { bareNode "Converter" [] [] with generics := [⟨"T", none, none⟩], members := [convert] }

/-- A generic type that applies the type of the method to its own parameter. -/
def converterOf (parameter : String) : Node :=
  { bareNode "Applied" [] [] with
    generics := [⟨parameter, none, none⟩]
    supertypes := [.named "Converter" [.var parameter]] }

def converters (parameter : String) : TypeGraph where
  nodes := [converter, converterOf parameter]
  distinct := by simp [converter, converterOf, bareNode]

theorem isInstance_convert (parameter : String) :
    (converters parameter).IsInstance (converterOf parameter)
      (convert.substitute [("T", .var parameter)]) (converter, [("T", .var parameter)])
      convert where
  path := .single (List.mem_singleton_self _)
  declares := List.mem_singleton_self _
  eq_substitute := rfl

theorem binds_convert_iff {name : String} : convert.Binds name ↔ name = "U" :=
  List.mem_singleton

theorem isFree_convert_iff {name : String} : convert.IsFree name ↔ name = "T" := by
  have types : convert.types = [.var "U", .var "T"] := rfl
  rw [Member.IsFree, binds_convert_iff, types]
  constructor
  · rintro ⟨unbound, type, listed, mentioned⟩
    rcases List.mem_pair.1 listed with rfl | rfl
    · exact absurd (List.mem_singleton.1 mentioned) unbound
    · exact List.mem_singleton.1 mentioned
  · rintro rfl
    exact ⟨by decide, .var "T", List.mem_pair.2 (.inr rfl), List.mem_singleton_self _⟩

/-- Nothing is captured where the parameters have different names. -/
theorem converters_free :
    convert.substitute [("T", .var "V")] ∈
        ((converters "V").allMembers (converterOf "V")).members ++
          ((converters "V").variantMembers (converterOf "V")).members ∧
      (converters "V").IsInstance (converterOf "V") (convert.substitute [("T", .var "V")])
        (converter, [("T", .var "V")]) convert ∧
      ∀ name, (convert.substitute [("T", .var "V")]).IsFree name ↔
        ∃ old, convert.IsFree old ∧ name ∈ Bindings.varsFor [("T", .var "V")] old := by
  have listed : convert.substitute [("T", .var "V")] ∈
      ((converters "V").allMembers (converterOf "V")).members ++
        ((converters "V").variantMembers (converterOf "V")).members := by
    have members : ((converters "V").allMembers (converterOf "V")).members =
        [convert.substitute [("T", .var "V")]] := by
      cbv
    rw [members]
    exact List.mem_cons_self
  have isInstance := isInstance_convert "V"
  refine ⟨listed, isInstance, (((free_variables_iff listed).2 _ _ isInstance).2).2 ?_⟩
  rintro name ⟨binds, old, free, stands⟩
  rw [isFree_convert_iff] at free
  rw [binds_convert_iff] at binds
  subst free binds
  revert stands
  decide

/-- A variable with the name of the method's own type parameter is captured. -/
theorem converters_captured :
    convert.substitute [("T", .var "U")] ∈
        ((converters "U").allMembers (converterOf "U")).members ∧
      (converters "U").IsInstance (converterOf "U") (convert.substitute [("T", .var "U")])
        (converter, [("T", .var "U")]) convert ∧
      (∃ old, convert.IsFree old ∧ "U" ∈ Bindings.varsFor [("T", .var "U")] old) ∧
      ¬ (convert.substitute [("T", .var "U")]).IsFree "U" := by
  have members : ((converters "U").allMembers (converterOf "U")).members =
      [convert.substitute [("T", .var "U")]] := by
    cbv
  refine ⟨?_, isInstance_convert "U", ⟨"T", isFree_convert_iff.2 rfl, by decide⟩, ?_⟩
  · rw [members]
    exact List.mem_cons_self
  · exact fun free => free.1 (Member.binds_substitute.2 (binds_convert_iff.2 rfl))

end TypeGraph

end TypeBridge
