/-!
# Host type signatures

A type as a host signature writes it: a name with arguments, an array, or a wildcard.  Names are
kept as written and mean nothing yet.
-/

namespace TypeBridge

/-- A host type before its names are resolved. -/
inductive Signature where
  /-- `org.example.Box<A, B>`. -/
  | named (name : String) (args : List Signature)
  /-- `A[]`. -/
  | array (element : Signature)
  /-- `?`. -/
  | anything
  /-- `? extends A`. -/
  | anyBelow (bound : Signature)
  /-- `? super A`. -/
  | anyAbove (bound : Signature)
  deriving Inhabited

namespace Signature

mutual

def text : Signature → String
  | named name [] => name
  | named name (arg :: rest) => name ++ "<" ++ arg.text ++ restText rest ++ ">"
  | array element => element.text ++ "[]"
  | anything => "?"
  | anyBelow bound => "? extends " ++ bound.text
  | anyAbove bound => "? super " ++ bound.text

/-- The arguments behind the first one. -/
def restText : List Signature → String
  | [] => ""
  | arg :: rest => ", " ++ arg.text ++ restText rest

end

/-- The name at the head of a named signature. -/
def head? : Signature → Option String
  | named name _ => some name
  | _ => none

end Signature

end TypeBridge
