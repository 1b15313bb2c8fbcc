import TypeBridge.Declaration.Spelling
import TypeBridge.Script.Naming
import TypeBridge.Script.Statement

/-!
# The shape of a declaration

What a declaration says, apart from its layout: a union of constants, a union of variants, or an
object type with parents and members.
-/

namespace TypeBridge

/-- A type parameter of a declaration or a method. -/
structure TypeParameter where
  modifier : Option Variance
  name : String
  bound : Option Spelling

namespace TypeParameter

def text (parameter : TypeParameter) : String :=
  let modifier := (parameter.modifier.map (·.word ++ " ")).getD ""
  let bound := (parameter.bound.map fun bound => " extends " ++ bound.text).getD ""
  modifier ++ parameter.name ++ bound

/-- The host names in the bounds of some type parameters. -/
def names (parameters : List TypeParameter) : List String :=
  (parameters.filterMap (·.bound)).flatMap (·.names)

end TypeParameter

inductive Entry where
  /-- The property that tells the variants of a union apart, with its only value. -/
  | discriminant (name value : String)
  | property (name : String) (type : Spelling) (optional : Bool) (doc : Option String)
  | method (name : String) (generics : List TypeParameter)
    (parameters : List (String × Spelling)) (result : Spelling) (optional : Bool)
    (doc : Option String)

namespace Entry

def name : Entry → String
  | discriminant name _ | property name .. | method name .. => name

/-- The host names in a member, the result of a method first. -/
def names : Entry → List String
  | discriminant _ _ => []
  | property _ type _ _ => type.names
  | method _ generics parameters result _ _ =>
    result.names ++ TypeParameter.names generics ++ parameters.flatMap (·.2.names)

def syntaxOf : Entry → Script.DocumentedMember
  | discriminant name value => ⟨none, .property true name false (Text.quoted value)⟩
  | property name type optional doc => ⟨doc, .property false name optional type.text⟩
  | method name generics parameters result optional doc =>
    ⟨doc, .method name optional (generics.map (·.text))
      (parameters.map fun (parameter, type) => ⟨parameter, type.text⟩) result.text⟩

end Entry

/-- What a declaration says. -/
inductive Shape where
  | constants (values : List String)
  | union (generics : List TypeParameter) (variants : List Spelling)
  /-- Members on top of parents, which are extended or else intersected. -/
  | object (generics : List TypeParameter) (intersected : Bool) (parents : List Spelling)
    (entries : List Entry)

namespace Shape

/-- The host names in a declaration: type parameters, then variants or members, then parents. -/
def names : Shape → List String
  | constants _ => []
  | union generics variants => TypeParameter.names generics ++ variants.flatMap (·.names)
  | object generics _ parents entries =>
    TypeParameter.names generics ++ entries.flatMap (·.names) ++ parents.flatMap (·.names)

/-- The statement for a declaration of some name.  Without parents there is nothing to intersect. -/
def statement (shape : Shape) (name : String) (doc : Option String) : Script.Statement :=
  match shape with
  | constants values => .unionOf ⟨name, doc, []⟩ (values.map Text.quoted)
  | union generics variants =>
    .unionOf ⟨name, doc, generics.map (·.text)⟩ (variants.map (·.text))
  | object generics intersected parents entries =>
    let heading : Script.Heading := ⟨name, doc, generics.map (·.text)⟩
    let members := entries.map (·.syntaxOf)
    if intersected && !parents.isEmpty then .intersection heading (parents.map (·.text)) members
    else .interface heading (parents.map (·.text)) members

end Shape

end TypeBridge
