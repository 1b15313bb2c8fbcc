import TypeBridge.Host.Name
import TypeBridge.Recipe.OptionType
import TypeBridge.Text.Quoted

/-!
# The text of script types

Writing arrays, nullable types, applied types and unions of types that are already written.
-/

namespace TypeBridge.Script

/-- Whether a text occurs inside another. -/
def occursIn (word : List Char) : List Char → Bool
  | [] => word.isEmpty
  | c :: rest => word.isPrefixOf (c :: rest) || occursIn word rest

/-- An array; a union is put in parentheses. -/
def arrayOf (element : String) : String :=
  if occursIn " | ".toList element.toList then "(" ++ element ++ ")[]" else element ++ "[]"

/-- A type or null, once. -/
def orNull (type : String) : String :=
  if " | null".toList.isSuffixOf type.toList then type else type ++ " | null"

/-- Type parameters or arguments in angle brackets, or nothing. -/
def angled (args : List String) : String :=
  if args.isEmpty then "" else "<" ++ ", ".intercalate args ++ ">"

/-- A union; without parts it has no values. -/
def union (parts : List String) : String :=
  if parts.isEmpty then "never" else " | ".intercalate parts

end TypeBridge.Script

namespace TypeBridge

/-- An option type as a script writes it. -/
def OptionType.text : OptionType → String
  | .string => "string"
  | .number => "number"
  | .boolean => "boolean"
  | .enum values => Script.union (values.map Text.quoted)
  | .list element => Script.arrayOf element.text
  | .host name => Name.spelled name

end TypeBridge
