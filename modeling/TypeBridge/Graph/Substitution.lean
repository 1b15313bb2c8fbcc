import TypeBridge.Graph.Node

/-!
# Substitution

Replacing type variables by types, in types and in members.
-/

namespace TypeBridge

/-- Types for type variables; the first pair of a name counts. -/
abbrev Bindings : Type :=
  List (String × ResolvedType)

namespace ResolvedType

mutual

/-- Replace the bound variables of a type. -/
def substitute (bindings : Bindings) : ResolvedType → ResolvedType
  | var name => (bindings.lookup name).getD (var name)
  | named name args => named name (substituteAll bindings args)
  | array element => array (element.substitute bindings)
  | set element => set (element.substitute bindings)
  | map key value => map (key.substitute bindings) (value.substitute bindings)
  | optional inner => optional (inner.substitute bindings)
  | anyBelow bound => anyBelow (bound.substitute bindings)
  | anyAbove bound => anyAbove (bound.substitute bindings)
  | primitive which => primitive which
  | anything => anything
  | unknown => unknown

def substituteAll (bindings : Bindings) : List ResolvedType → List ResolvedType
  | [] => []
  | type :: rest => type.substitute bindings :: substituteAll bindings rest

end

theorem substituteAll_eq_map (bindings : Bindings) (types : List ResolvedType) :
    substituteAll bindings types = types.map (·.substitute bindings) := by
  induction types with
  | nil => rfl
  | cons type rest ih => simp [substituteAll, ih]

mutual

/-- Without bindings nothing changes. -/
theorem substitute_nil : ∀ type : ResolvedType, type.substitute [] = type
  | var _ => rfl
  | named name args => by simp [substitute, substituteAll_nil args]
  | array element | set element | optional element => by simp [substitute, substitute_nil element]
  | map key value => by simp [substitute, substitute_nil key, substitute_nil value]
  | anyBelow bound | anyAbove bound => by simp [substitute, substitute_nil bound]
  | primitive _ | anything | unknown => rfl

theorem substituteAll_nil : ∀ types : List ResolvedType, substituteAll [] types = types
  | [] => rfl
  | type :: rest => by simp [substituteAll, substitute_nil type, substituteAll_nil rest]

end

end ResolvedType

/-- Replace bound variables in a member.  The parameters of a generic method hide variables of the
same name. -/
def Member.substitute (bindings : Bindings) (member : Member) : Member :=
  match member.kind with
  | .field => { member with type := member.type.substitute bindings }
  | .method parameters generics =>
    let visible := bindings.filter fun (name, _) => !generics.any (·.name == name)
    let kind := MemberKind.method
      (parameters.map fun parameter =>
        { parameter with type := parameter.type.substitute visible })
      (generics.map fun generic =>
        { generic with bound := generic.bound.map (·.substitute visible) })
    { member with kind, type := member.type.substitute visible }

/-- The types that a reference gives to the parameters of a type.  Of two parameters with one name
the later counts. -/
def Node.bind (node : Node) (args : List ResolvedType) : Bindings :=
  ((node.generics.map (·.name)).zip args).reverse

end TypeBridge
