import TypeBridge.Graph.Node
import TypeBridge.Script.TypeText

/-!
# Spelling types

What is left of a resolved type in a declaration: wildcards give way to their upper bounds, and
everything without structure is unknown.
-/

namespace TypeBridge

/-- A type as a declaration spells it. -/
inductive Spelling where
  | primitive (which : Primitive)
  | unknown
  | var (name : String)
  /-- A declared type, by its host name. -/
  | declared (name : String) (args : List Spelling)
  | array (element : Spelling)
  | set (element : Spelling)
  | map (key value : Spelling)
  | nullable (inner : Spelling)
  deriving Inhabited

namespace Spelling

mutual

def text : Spelling → String
  | primitive which => which.word
  | unknown => "unknown"
  | var name => name
  | declared name args => Name.spelled name ++ Script.angled (texts args)
  | array element => Script.arrayOf element.text
  | set element => "Set<" ++ element.text ++ ">"
  | map key value => "Map<" ++ key.text ++ ", " ++ value.text ++ ">"
  | nullable inner => Script.orNull inner.text

def texts : List Spelling → List String
  | [] => []
  | spelling :: rest => spelling.text :: texts rest

end

mutual

/-- The host names of the declared types, from left to right. -/
def names : Spelling → List String
  | declared name args => name :: namesOfAll args
  | array element | set element | nullable element => element.names
  | map key value => key.names ++ value.names
  | primitive _ | unknown | var _ => []

def namesOfAll : List Spelling → List String
  | [] => []
  | spelling :: rest => spelling.names ++ namesOfAll rest

end

/-- A spelled type or nothing. -/
def orNothing (isNullable : Bool) (spelling : Spelling) : Spelling :=
  if isNullable then .nullable spelling else spelling

end Spelling

namespace ResolvedType

mutual

def spell : ResolvedType → Spelling
  | primitive which => .primitive which
  | named name args => .declared name (spellAll args)
  | var name => .var name
  | array element => .array element.spell
  | set element => .set element.spell
  | map key value => .map key.spell value.spell
  | optional inner => .nullable inner.spell
  | anyBelow bound => bound.spell
  | anything | anyAbove _ | unknown => .unknown

def spellAll : List ResolvedType → List Spelling
  | [] => []
  | type :: rest => type.spell :: spellAll rest

end

end ResolvedType

end TypeBridge
