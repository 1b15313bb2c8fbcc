import TypeBridge.Layout.Fragment
import TypeBridge.Text.Quoted

/-!
# Object and array literals

Objects stand on one line per property.  Arrays stand on one line unless they hold an object.
-/

namespace TypeBridge.Script

inductive Literal where
  | text (content : String)
  /-- An expression as it is. -/
  | raw (code : String)
  | object (properties : List (String × Literal))
  | array (items : List Literal)
  deriving Inhabited

namespace Literal

/-- The text of a literal that always stands on one line. -/
def scalar? : Literal → Option String
  | text content => some (Text.quoted content)
  | raw code => some code
  | object _ | array _ => none

/-- The text of array items on one line, when all are scalars. -/
def inline? (items : List Literal) : Option String :=
  (items.mapM scalar?).map fun texts => "[" ++ ", ".intercalate texts ++ "]"

mutual

/-- A literal between a text in front of it and a text behind it. -/
def fragment (front back : String) : Literal → Fragment
  | text content => .line (front ++ Text.quoted content ++ back)
  | raw code => .line (front ++ code ++ back)
  | object [] => .line (front ++ "\x7b\x7d" ++ back)
  | object (property :: rest) =>
    .block (front ++ "\x7b") (propertyFragments (property :: rest)) (some ("\x7d" ++ back))
  | array items =>
    match inline? items with
    | some content => .line (front ++ content ++ back)
    | none => .block (front ++ "[") (itemFragments items) (some ("]" ++ back))

/-- Properties, each with a comma. -/
def propertyFragments : List (String × Literal) → List Fragment
  | [] => []
  | (key, value) :: rest => value.fragment (key ++ ": ") "," :: propertyFragments rest

/-- Array items, each with a comma. -/
def itemFragments : List Literal → List Fragment
  | [] => []
  | item :: rest => item.fragment "" "," :: itemFragments rest

end

end Literal

end TypeBridge.Script
