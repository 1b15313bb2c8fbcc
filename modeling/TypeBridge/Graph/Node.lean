import TypeBridge.Graph.ResolvedType
import TypeBridge.Host.HostType

/-!
# Nodes of the type graph

A resolved type with everything its declaration needs.
-/

namespace TypeBridge

structure Generic where
  name : String
  bound : Option ResolvedType
  variance : Option Variance
  deriving DecidableEq

structure Parameter where
  name : String
  type : ResolvedType
  nullable : Bool
  deriving DecidableEq

/-- What a member is besides its type. -/
inductive MemberKind where
  | field
  | method (parameters : List Parameter) (generics : List Generic)
  deriving DecidableEq

/-- A member of a type; `type` is the result of a method. -/
structure Member where
  name : String
  kind : MemberKind
  type : ResolvedType
  nullable : Bool
  /-- May be absent from an implementation. -/
  optional : Bool
  doc : Option String
  deriving DecidableEq

namespace Member

def isMethod (member : Member) : Bool :=
  match member.kind with
  | .field => false
  | .method _ _ => true

/-- What members of one type are told apart by: fields by name, methods by name and number of
parameters, so that overloads stay distinct. -/
def key (member : Member) : String :=
  match member.kind with
  | .field => member.name
  | .method parameters _ => member.name ++ "/" ++ toString parameters.length

/-- Every type in the signature of a member. -/
def types (member : Member) : List ResolvedType :=
  match member.kind with
  | .field => [member.type]
  | .method parameters generics =>
    member.type :: parameters.map (·.type) ++ generics.filterMap (·.bound)

end Member

structure Node where
  name : String
  kind : TypeKind
  doc : Option String
  generics : List Generic
  members : List Member
  supertypes : List ResolvedType
  nested : List String
  variants : List String
  constants : List String
  /-- When the type was discovered. -/
  index : Nat
  deriving DecidableEq

namespace Node

/-- A closed type has exactly its listed variants. -/
def isClosed (node : Node) : Bool :=
  !node.variants.isEmpty

def isEnum (node : Node) : Bool :=
  node.kind == .enum

def supertypeNames (node : Node) : List String :=
  node.supertypes.filterMap (·.name?)

/-- Every type in the declaration of the node: supertypes, bounds, and the types of members. -/
def types (node : Node) : List ResolvedType :=
  node.supertypes ++ node.generics.filterMap (·.bound) ++ node.members.flatMap (·.types)

/-- Every type that a declaration of the node depends on, each once: those it mentions and its
variants, but not the node itself. -/
def dependencies (node : Node) : List String :=
  ((node.types.flatMap (·.names) ++ node.variants).filter (· != node.name)).eraseDups

theorem mem_dependencies_iff {node : Node} {name : String} :
    name ∈ node.dependencies ↔
      ((∃ type ∈ node.types, name ∈ type.names) ∨ name ∈ node.variants) ∧ name ≠ node.name := by
  simp [dependencies, or_and_right]

end Node

end TypeBridge
