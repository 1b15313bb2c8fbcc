/-!
# Option types

The types that an option of a recipe may have for a script.
-/

namespace TypeBridge

/-- A type that scripts can supply. -/
inductive OptionType where
  | string
  | number
  | boolean
  /-- One of some constants. -/
  | enum (values : List String)
  | list (element : OptionType)
  /-- A host type of the declaration closure. -/
  | host (name : String)
  deriving DecidableEq, Repr, Inhabited

/-- The host types inside an option type. -/
def OptionType.hosts : OptionType → List String
  | .host name => [name]
  | .list element => element.hosts
  | .string | .number | .boolean | .enum _ => []

end TypeBridge
