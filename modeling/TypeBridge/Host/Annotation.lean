import TypeBridge.Host.Argument
import TypeBridge.Host.Name

/-!
# Annotations

What a host type, member or parameter is annotated with, and the annotations that carry a meaning.
-/

namespace TypeBridge

/-- An annotation with its arguments. -/
structure Annotation where
  name : String
  args : Toml.Table

namespace Annotation

/-- Annotations are recognised by their simple name. -/
def isNamed (mark : Annotation) (name : String) : Bool :=
  Name.simple mark.name == name

def text? (mark : Annotation) (key : String) : Option String :=
  (mark.args.lookup key).map (·.plainText)

def flag? (mark : Annotation) (key : String) : Option Bool :=
  (mark.args.lookup key).bind (·.flag?)

/-- Marks a recipe. -/
def recipe : String := "Recipe"

/-- Marks an option of a recipe. -/
def option : String := "Option"

/-- Marks a member or parameter that may hold nothing. -/
def nullable : String := "Nullable"

/-- Names the type that a recipe visits. -/
def visitor : String := "Visitor"

end Annotation

/-- The first annotation of a simple name. -/
def firstNamed? (annotations : List Annotation) (name : String) : Option Annotation :=
  annotations.find? (·.isNamed name)

def anyNamed (annotations : List Annotation) (name : String) : Bool :=
  (firstNamed? annotations name).isSome

end TypeBridge
