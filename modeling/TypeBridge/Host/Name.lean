import TypeBridge.Text.Letter

/-!
# Qualified host names

A qualified name such as `org.example.Outer$Inner` has segments parted by dots, of which the last
holds the type's own names, from the outermost type inwards, parted by dollar signs.
-/

namespace TypeBridge.Name

/-- The part behind the last occurrence of a separator, or everything. -/
def behindLast (separator : Char) (text : List Char) : List Char :=
  (text.reverse.takeWhile (· != separator)).reverse

/-- The part before the last occurrence of a separator. -/
def beforeLast? (separator : Char) (text : List Char) : Option (List Char) :=
  match text.reverse.dropWhile (· != separator) with
  | [] => none
  | _ :: front => some front.reverse

/-- The name without its namespace, `Outer$Inner`. -/
def simple (name : String) : String :=
  String.ofList (behindLast '.' name.toList)

/-- The names that address the type from the outermost type inwards. -/
def path (name : String) : List String :=
  ((behindLast '.' name.toList).splitOn '$').map String.ofList

/-- The dotted name that a declaration is addressed by, `Outer.Inner`. -/
def spelled (name : String) : String :=
  ".".intercalate (path name)

/-- The name of the directly enclosing type. -/
def outer? (name : String) : Option String :=
  (beforeLast? '$' name.toList).map String.ofList

theorem length_lt_of_beforeLast? {separator : Char} {text front : List Char}
    (found : beforeLast? separator text = some front) : front.length < text.length := by
  unfold beforeLast? at found
  split at found
  · simp at found
  · next c rest dropped =>
    have := (List.dropWhile_sublist (· != separator) (l := text.reverse)).length_le
    rw [dropped] at this
    simp_all only [Option.some.injEq, List.length_cons, List.length_reverse]
    subst found
    simp
    omega

/-- The characters of all enclosing names, the innermost first. -/
def outerChars (name : List Char) : List (List Char) :=
  match _found : beforeLast? '$' name with
  | none => []
  | some parent => parent :: outerChars parent
termination_by name.length
decreasing_by exact length_lt_of_beforeLast? _found

/-- The names of all enclosing types, the innermost first. -/
def outers (name : String) : List String :=
  (outerChars name.toList).map String.ofList

/-- Why a text is no name. -/
inductive Fault where
  | empty
  | emptySegment
  | badStart
  | badCharacter
  deriving DecidableEq, Repr

def Fault.message : Fault → String
  | .empty => "name cannot be empty"
  | .emptySegment => "name contains an empty segment"
  | .badStart => "names must start with a letter or underscore"
  | .badCharacter => "names may contain only letters, numbers and underscores"

/-- Letters and the underscore begin an identifier. -/
def isStart (c : Char) : Bool :=
  Text.Letter.isAlphabetic c || c == '_'

/-- Letters, numbers and the underscore continue it. -/
def isPart (c : Char) : Bool :=
  Text.Letter.isAlphanumeric c || c == '_'

/-- The first fault of a single identifier. -/
def identifierFault? : List Char → Option Fault
  | [] => some .empty
  | c :: rest =>
    if !isStart c then some .badStart
    else if rest.all isPart then none
    else some .badCharacter

/-- The first fault of one segment of a qualified name. -/
def segmentFault? (segment : List Char) : Option Fault :=
  if segment.isEmpty then some .emptySegment else identifierFault? segment

/-- The first fault of a qualified name: every segment is an identifier. -/
def fault? (name : String) : Option Fault :=
  if name.toList.isEmpty then some .empty
  else (name.toList.splitOnP fun c => c == '.' || c == '$').findSome? segmentFault?

end TypeBridge.Name
