import TypeBridge.Closure.Builtin
import TypeBridge.Graph.Node
import TypeBridge.Host.AllowList
import TypeBridge.Host.HostModel
import TypeBridge.Pass.PassError

/-!
# Reading host types

A host type becomes a node by resolving every signature in it.  Reading a type also mentions the
types that its node needs; what is read depends on the type, the model and the allow-list alone.
-/

namespace TypeBridge

/-- A result together with the type names mentioned on the way, or a fatal error. -/
def Reading (α : Type) : Type :=
  Except PassError (α × List String)

namespace Reading

instance : Monad Reading where
  pure a := Except.ok (a, [])
  bind reading next :=
    match reading with
    | .error error => .error error
    | .ok (a, mentioned) =>
      match next a with
      | .error error => .error error
      | .ok (b, further) => .ok (b, mentioned ++ further)

def mention (name : String) : Reading Unit :=
  Except.ok ((), [name])

def refuse {α : Type} (error : PassError) : Reading α :=
  Except.error error

end Reading

/-- A host model, and the part of it that may be declared. -/
structure HostView where
  model : HostModel
  allow : AllowList

namespace HostView

/-- A type that may be declared: visible from outside and inside the allow-list. -/
def admitted? (view : HostView) (name : String) : Option HostType :=
  (view.model.get? name).filter fun type =>
    view.allow.contains name && type.visibility.isApi

/-- The type variables that the enclosing types of a name bring into scope, the outermost first. -/
def outerVars (view : HostView) (name : String) : List String :=
  ((Name.outers name).filterMap view.model.get?).reverse.flatMap fun type =>
    type.generics.map (·.name)

def varsIn (view : HostView) (name : String) (generics : List HostGeneric) : List String :=
  view.outerVars name ++ generics.map (·.name)

mutual

/-- Resolve a signature.  `scope` holds the type variables, `path` says where the signature stands,
and `expandable` lists the types whose bounds may still stand in for missing arguments. -/
def resolve (view : HostView) (expandable scope : List String) (path : String) :
    Signature → Reading ResolvedType
  | .anything => pure .anything
  | .anyBelow bound => return .anyBelow (← view.resolve expandable scope path bound)
  | .anyAbove bound => return .anyAbove (← view.resolve expandable scope path bound)
  | .array element => return .array (← view.resolve expandable scope path element)
  | .named name args =>
    if args.isEmpty && scope.contains name then pure (.var name)
    else
      match Builtin.ofName? name with
      | some builtin => return builtin.apply (← view.resolveAll expandable scope path args)
      | none =>
        match view.admitted? name with
        | none =>
          if view.allow.contains name && !view.model.contains name then
            Reading.refuse (.unresolvedType name path)
          else pure .unknown
        | some type => do
          Reading.mention name
          if !args.isEmpty && args.length != type.generics.length then
            Reading.refuse (.genericArity name path type.generics.length args.length)
          else if !args.isEmpty then
            return .named name (← view.resolveAll expandable scope path args)
          else if _listed : name ∈ expandable then
            return .named name (← view.boundsOf (expandable.erase name)
              (view.varsIn name type.generics) name type.generics)
          else return .named name (List.replicate type.generics.length .unknown)
termination_by signature => (expandable.length, sizeOf signature)
decreasing_by
  · exact Prod.Lex.right _ (by simp)
  · exact Prod.Lex.right _ (by simp)
  · exact Prod.Lex.right _ (by simp)
  · exact Prod.Lex.right _ (by rw [Signature.named.sizeOf_spec]; omega)
  · exact Prod.Lex.right _ (by rw [Signature.named.sizeOf_spec]; omega)
  · exact Prod.Lex.left _ _ (by
      rw [List.length_erase_of_mem _listed]
      have := List.length_pos_of_mem _listed
      omega)

def resolveAll (view : HostView) (expandable scope : List String) (path : String) :
    List Signature → Reading (List ResolvedType)
  | [] => pure []
  | signature :: rest => do
    let type ← view.resolve expandable scope path signature
    let types ← view.resolveAll expandable scope path rest
    return type :: types
termination_by signatures => (expandable.length, sizeOf signatures)
decreasing_by
  · exact Prod.Lex.right _ (by rw [List.cons.sizeOf_spec]; omega)
  · exact Prod.Lex.right _ (by rw [List.cons.sizeOf_spec]; omega)

/-- The arguments of a reference that gives none: the bound of each parameter, or unknown when
there is no bound or it mentions type variables. -/
def boundsOf (view : HostView) (expandable scope : List String) (name : String) :
    List HostGeneric → Reading (List ResolvedType)
  | [] => pure []
  | ⟨generic, bound, _⟩ :: rest => do
    let arg ←
      match bound with
      | none => pure .unknown
      | some signature => do
        let type ← view.resolve expandable scope (name ++ "<" ++ generic ++ ">") signature
        pure (if type.vars.isEmpty then type else .unknown)
    let args ← view.boundsOf expandable scope name rest
    return arg :: args
termination_by generics => (expandable.length, sizeOf generics)
decreasing_by
  · exact Prod.Lex.right _ (by rw [List.cons.sizeOf_spec]; omega)
  · exact Prod.Lex.right _ (by
      rw [List.cons.sizeOf_spec, HostGeneric.mk.sizeOf_spec, Option.some.sizeOf_spec]
      omega)

end

/-- Resolve a signature, with every type expandable. -/
def type (view : HostView) (scope : List String) (path : String) (signature : Signature) :
    Reading ResolvedType :=
  view.resolve view.model.names scope path signature

def generics (view : HostView) (scope : List String) (path : String)
    (generics : List HostGeneric) : Reading (List Generic) :=
  generics.mapM fun generic => do
    let bound ←
      match generic.bound with
      | none => pure none
      | some signature =>
        some <$> view.type scope (path ++ "<" ++ generic.name ++ ">") signature
    return ⟨generic.name, bound, generic.variance⟩

/-- Methods of every host object, which no declaration lists. -/
def objectMethods : List String :=
  ["equals", "hashCode", "toString", "canEqual"]

/-- Members that a declaration lists. -/
def isListed (member : HostMember) : Bool :=
  !member.isStatic && member.visibility.isApi &&
    !(member.isMethod && objectMethods.contains member.name)

def parameters (view : HostView) (scope : List String) (path : String)
    (parameters : List HostParameter) : Reading (List Parameter) :=
  parameters.mapM fun parameter => do
    let type ← view.type scope (path ++ "(" ++ parameter.name ++ ")") parameter.type
    return ⟨parameter.name, type, parameter.isNullable⟩

def member (view : HostView) (scope : List String) (owner : String) (member : HostMember) :
    Reading Member := do
  let path := owner ++ "." ++ member.name
  let inner := if member.isMethod then scope ++ member.generics.map (·.name) else scope
  let kind ←
    if member.isMethod then do
      let generics ← view.generics inner path member.generics
      let parameters ← view.parameters inner path member.parameters
      pure (MemberKind.method parameters generics)
    else pure .field
  let type ← view.type inner path member.type
  return {
    name := member.name
    kind
    type
    nullable := member.isNullable
    optional := member.optional
    doc := member.doc }

/-- Read the nested types that may be declared. -/
def nested (view : HostView) (types : List HostType) : Reading (List String) := do
  let names := (types.filter fun type =>
    type.visibility.isApi && view.allow.contains type.name).map (·.name)
  names.forM Reading.mention
  return names

/-- Read the variants of a closed type; those that may not be declared are dropped. -/
def variants (view : HostView) (owner : String) : List String → Reading (List String)
  | [] => pure []
  | variant :: rest =>
    if !view.model.contains variant then Reading.refuse (.unknownVariant owner variant)
    else
      match view.admitted? variant with
      | none => view.variants owner rest
      | some _ => do
        Reading.mention variant
        let others ← view.variants owner rest
        return variant :: others

/-- Read a host type.  Supertypes that resolve to no graph type contribute nothing. -/
def node (view : HostView) (type : HostType) : Reading Node := do
  let scope := view.varsIn type.name type.generics
  let generics ← view.generics scope type.name type.generics
  let supertypes ← type.supertypes.mapM (view.type scope (type.name ++ " (supertype)"))
  let members ← (type.members.filter isListed).mapM (view.member scope type.name)
  let nested ← view.nested type.nested
  match (Name.outer? type.name).filter view.model.contains with
  | none => pure ()
  | some outer => Reading.mention outer
  let variants ← view.variants type.name type.variants
  return {
    name := type.name
    kind := type.kind
    doc := type.doc
    generics
    members
    supertypes := supertypes.filter fun supertype => supertype.name?.isSome
    nested
    variants
    constants := type.constants
    index := 0 }

end HostView

end TypeBridge
