import TypeBridge.Text.Front

/-!
# Allow-lists

The namespaces whose types may be declared.
-/

namespace TypeBridge

/-- Namespaces, each standing for itself and everything below it. -/
structure AllowList where
  namespaces : List String
  deriving DecidableEq, Repr

namespace AllowList

/-- No restriction at all. -/
def isEmpty (allow : AllowList) : Bool :=
  allow.namespaces.isEmpty

/-- A name is inside a namespace when it is the namespace or continues it at a segment. -/
def covers (outside name : List Char) : Bool :=
  match Text.behindFront? outside name with
  | some [] => true
  | some (c :: _) => c == '.' || c == '$'
  | none => false

/-- An empty list admits every name. -/
def contains (allow : AllowList) (name : String) : Bool :=
  allow.isEmpty || allow.namespaces.any fun outside => covers outside.toList name.toList

end AllowList

end TypeBridge
