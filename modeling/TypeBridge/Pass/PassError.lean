/-!
# Fatal errors of a pass

Why a model cannot be turned into declarations at all.
-/

namespace TypeBridge

/-- An error that ends a pass. -/
inductive PassError where
  /-- A reference inside the allow-list to a type that the model does not have. -/
  | unresolvedType (reference path : String)
  | genericArity (reference path : String) (expected found : Nat)
  | unknownVariant (owner variant : String)
  | cyclicInheritance (cycle : List String)
  /-- Two types that would be declared under one name. -/
  | nameCollision (name first second : String)
  /-- A reference that would be captured by a type of an enclosing namespace. -/
  | shadowedReference (reference enclosing shadow : String)
  deriving DecidableEq, Repr

def PassError.message : PassError → String
  | .unresolvedType reference path =>
    "unresolved type '" ++ reference ++ "' referenced from " ++ path
  | .genericArity reference path expected found =>
    "'" ++ reference ++ "' takes " ++ toString expected ++ " type argument(s) but " ++ path ++
      " supplies " ++ toString found
  | .unknownVariant owner variant =>
    "variant '" ++ variant ++ "' of closed type '" ++ owner ++ "' is not in the model"
  | .cyclicInheritance cycle => "cyclic supertype chain: " ++ " -> ".intercalate cycle
  | .nameCollision name first second =>
    "'" ++ first ++ "' and '" ++ second ++ "' would both be declared as '" ++ name ++ "'"
  | .shadowedReference reference enclosing shadow =>
    "reference to '" ++ reference ++ "' inside namespace '" ++ enclosing ++
      "' is shadowed by '" ++ shadow ++ "'"

end TypeBridge
