import TypeBridge.Graph.ResolvedType
import TypeBridge.Host.Name
import TypeBridge.Text.Front

/-!
# Built-in host types

Host types with a fixed meaning in every declaration, known by their short name and by their
qualified name.
-/

namespace TypeBridge

/-- The meaning of a built-in type. -/
inductive Builtin where
  | primitive (which : Primitive)
  /-- Carries no structure. -/
  | unknown
  /-- An ordered collection of the first argument. -/
  | array
  | set
  | map
  /-- The first argument or nothing. -/
  | optional
  deriving DecidableEq, Repr

namespace Builtin

def namespaces : List String :=
  ["java.lang.", "java.util.", "java.math."]

/-- The built-in types of each meaning, by short name. -/
def byShortName : List (Builtin × List String) :=
  [(.primitive .boolean, ["boolean", "Boolean"]),
   (.primitive .number,
     ["byte", "short", "int", "long", "float", "double", "Byte", "Short", "Integer", "Long",
      "Float", "Double", "Number", "BigInteger", "BigDecimal"]),
   (.primitive .string, ["char", "Character", "String", "CharSequence", "UUID"]),
   (.primitive .void, ["void", "Void"]),
   (.unknown, ["Object"]),
   (.array, ["List", "Collection", "Iterable"]),
   (.set, ["Set"]),
   (.map, ["Map"]),
   (.optional, ["Optional"])]

/-- A name without the namespace of built-in types. -/
def shortName (name : String) : String :=
  let rest? := namespaces.findSome? fun outside => Text.behindFront? outside.toList name.toList
  (rest?.map String.ofList).getD name

def ofName? (name : String) : Option Builtin :=
  (byShortName.find? fun (_, names) => names.contains (shortName name)).map (·.1)

/-- The resolved type of a built-in type with arguments.  A missing argument is unknown. -/
def apply (builtin : Builtin) (args : List ResolvedType) : ResolvedType :=
  let arg (index : Nat) : ResolvedType := (args[index]?).getD .unknown
  match builtin with
  | primitive which => .primitive which
  | unknown => .unknown
  | array => .array (arg 0)
  | set => .set (arg 0)
  | map => .map (arg 0) (arg 1)
  | optional => .optional (arg 0)

end Builtin

end TypeBridge
