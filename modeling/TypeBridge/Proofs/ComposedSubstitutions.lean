import TypeBridge.Proofs.CapturedVariables

/-!
# One substitution behind another

The types that a chain of supertypes passes up are substituted once for each link of the chain.  Two
substitutions, one behind the other, are a single one: it gives a variable of the first the image
under the second of what the first gives it, and treats every other variable as the second does.  All
variables are replaced at once, so nothing that a substitution puts in is replaced by it again.
-/

namespace TypeBridge

namespace Bindings

/-- What a variable is replaced by: the type bound to it, or the variable itself. -/
def image (bindings : Bindings) (name : String) : ResolvedType :=
  (bindings.lookup name).getD (.var name)

/-- Bindings that give each variable of the first the image of its type under the second, and each
other variable what the second gives it. -/
def Composes (first second composed : Bindings) : Prop :=
  ∀ name, composed.lookup name =
    match first.lookup name with
    | some type => some (type.substitute second)
    | none => second.lookup name

/-- The second bindings behind the first. -/
def andThen (first second : Bindings) : Bindings :=
  first.map (fun (name, type) => (name, type.substitute second)) ++ second

theorem vars_image (bindings : Bindings) (name : String) :
    (bindings.image name).vars = bindings.varsFor name := by
  unfold image varsFor
  cases bindings.lookup name <;> rfl

theorem composes_andThen (first second : Bindings) :
    first.Composes second (first.andThen second) := by
  intro name
  induction first with
  | nil => rfl
  | cons pair rest ih =>
    obtain ⟨bound, type⟩ := pair
    rw [andThen, List.map_cons, List.cons_append, List.lookup_cons, List.lookup_cons]
    cases name == bound with
    | true => rfl
    | false => exact ih

/-- Composed bindings give a variable what the second makes of its image under the first. -/
theorem Composes.image_eq {first second composed : Bindings}
    (composes : first.Composes second composed) (name : String) :
    composed.image name = (first.image name).substitute second := by
  unfold image
  rw [composes name]
  cases first.lookup name <;> rfl

end Bindings

namespace ResolvedType

variable {first second composed : Bindings}

mutual

theorem substitute_substitute (composes : first.Composes second composed) :
    ∀ type : ResolvedType, (type.substitute first).substitute second = type.substitute composed
  | var name => (composes.image_eq name).symm
  | named name args => by
    simp only [substitute, substituteAll_substituteAll composes args]
  | array element | set element | optional element => by
    simp only [substitute, substitute_substitute composes element]
  | map key value => by
    simp only [substitute, substitute_substitute composes key, substitute_substitute composes value]
  | anyBelow bound | anyAbove bound => by
    simp only [substitute, substitute_substitute composes bound]
  | primitive _ | anything | unknown => by simp only [substitute]

theorem substituteAll_substituteAll (composes : first.Composes second composed) :
    ∀ types : List ResolvedType,
      substituteAll second (substituteAll first types) = substituteAll composed types
  | [] => rfl
  | type :: rest => by
    simp only [substituteAll, substitute_substitute composes type,
      substituteAll_substituteAll composes rest]

end

end ResolvedType

/-- There are bindings that compose two others.  All of them substitute at once what the two
substitute one behind the other; the variables of a substituted type are those of the images of its
variables; and no bindings leave every type as it is. -/
theorem substitution_composes (first second : Bindings) :
    first.Composes second (first.andThen second) ∧
      (∀ composed : Bindings, first.Composes second composed → ∀ type : ResolvedType,
        (type.substitute first).substitute second = type.substitute composed) ∧
      (∀ (type : ResolvedType) (name : String),
        name ∈ (type.substitute first).vars ↔
          ∃ old ∈ type.vars, name ∈ (first.image old).vars) ∧
      ∀ type : ResolvedType, type.substitute [] = type := by
  refine ⟨Bindings.composes_andThen first second, ?_, ?_, ResolvedType.substitute_nil⟩
  · intro composed composes type
    exact ResolvedType.substitute_substitute composes type
  · intro type name
    simp only [Bindings.vars_image]
    exact ResolvedType.mem_vars_substitute_iff type

/-- Variables that are replaced by each other change places. -/
example : (ResolvedType.map (.var "T") (.var "U")).substitute [("T", .var "U"), ("U", .var "T")] =
    .map (.var "U") (.var "T") := by
  decide

end TypeBridge
