import TypeBridge.Host.Annotation
import TypeBridge.Host.Signature

/-!
# Host types

The declarations of a host-model snapshot: types with their generic parameters, members,
constructors, supertypes and nested types.
-/

namespace TypeBridge

/-- The sort of a type. -/
inductive TypeKind where
  | interface
  | «class»
  | enum
  deriving DecidableEq, Repr

def TypeKind.word : TypeKind → String
  | .interface => "interface"
  | .class => "class"
  | .enum => "enum"

/-- Declaration-site variance. -/
inductive Variance where
  /-- The parameter is only consumed. -/
  | contravariant
  /-- The parameter is only produced. -/
  | covariant
  deriving DecidableEq, Repr

def Variance.word : Variance → String
  | .contravariant => "in"
  | .covariant => "out"

/-- Who may use a declaration. -/
inductive Visibility where
  | «public»
  | «protected»
  | package
  | «private»
  deriving DecidableEq, Repr

namespace Visibility

def word : Visibility → String
  | .public => "public"
  | .protected => "protected"
  | .package => "package"
  | .private => "private"

/-- Visible to code outside the declaring package. -/
def isApi : Visibility → Bool
  | .public | .protected => true
  | .package | .private => false

end Visibility

structure HostGeneric where
  name : String
  bound : Option Signature
  variance : Option Variance

structure HostParameter where
  name : String
  type : Signature
  markedNullable : Bool
  annotations : List Annotation

/-- A parameter is nullable by its own word or by annotation. -/
def HostParameter.isNullable (parameter : HostParameter) : Bool :=
  parameter.markedNullable || anyNamed parameter.annotations Annotation.nullable

/-- A field or a method. -/
structure HostMember where
  name : String
  isMethod : Bool
  /-- The type of a field, the result of a method. -/
  type : Signature
  markedNullable : Bool
  optional : Bool
  isStatic : Bool
  visibility : Visibility
  doc : Option String
  parameters : List HostParameter
  generics : List HostGeneric
  annotations : List Annotation

/-- A member is nullable by its own word or by annotation. -/
def HostMember.isNullable (member : HostMember) : Bool :=
  member.markedNullable || anyNamed member.annotations Annotation.nullable

structure HostConstructor where
  visibility : Visibility
  parameters : List HostParameter

/-- A host type with everything declared inside it. -/
structure HostType where
  name : String
  /-- Where the snapshot writes the name. -/
  span : Span
  kind : TypeKind
  visibility : Visibility
  doc : Option String
  generics : List HostGeneric
  supertypes : List Signature
  members : List HostMember
  constructors : List HostConstructor
  nested : List HostType
  /-- A closed type has exactly the listed variants. -/
  closed : Bool
  variants : List String
  constants : List String
  annotations : List Annotation

namespace HostType

def isRecipe (type : HostType) : Bool :=
  anyNamed type.annotations Annotation.recipe

def supertypeNames (type : HostType) : List String :=
  type.supertypes.filterMap (·.head?)

end HostType

end TypeBridge
