import TypeBridge.Text.Words

/-!
# Script names

How host names become names of a script: types in Pascal case, values in camel case, files in
kebab case, and words that the script reserves marked by an underscore.
-/

namespace TypeBridge.Script

/-- Words that are no names. -/
def reservedWords : List String :=
  ["break", "case", "catch", "class", "const", "continue", "debugger", "default", "delete", "do",
   "else", "enum", "export", "extends", "false", "finally", "for", "function", "if", "import", "in",
   "instanceof", "let", "new", "null", "return", "super", "switch", "this", "throw", "true", "try",
   "typeof", "var", "void", "while", "with", "yield", "implements", "interface", "package",
   "private", "protected", "public", "static", "arguments", "eval"]

def isReserved (name : String) : Bool :=
  reservedWords.contains name

/-- A name that is not reserved. -/
def safeName (name : String) : String :=
  if isReserved name then name ++ "_" else name

/-- The name of a type. -/
def typeName (name : String) : String :=
  safeName (Text.pascalCase name)

/-- The name of a value. -/
def valueName (name : String) : String :=
  safeName (Text.camelCase name)

/-- The name of a file without its extension. -/
def fileStem (name : String) : String :=
  Text.kebabCase name

end TypeBridge.Script
