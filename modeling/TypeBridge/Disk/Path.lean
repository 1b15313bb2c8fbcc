/-!
# Paths

Paths as texts, with pieces between slashes.  A path is joined, taken apart and counted without a
look at what is stored under it.
-/

namespace TypeBridge.Path

/-- The pieces between slashes. -/
def pieces (path : String) : List String :=
  (path.toList.splitOn '/').map String.ofList

def isAbsolute (path : String) : Bool :=
  path.toList.head? == some '/'

/-- Whether a piece is the name of an entry, rather than empty or a step to a folder nearby. -/
def isEntry (piece : String) : Bool :=
  piece != "" && piece != "." && piece != ".."

/-- How many entries a path goes down. -/
def depth (path : String) : Nat :=
  (pieces path).countP isEntry

/-- Continue a path by another one.  An absolute path stands for itself. -/
def join (base path : String) : String :=
  if isAbsolute path then path
  else
    match base.toList.getLast? with
    | none => path
    | some c => if c = '/' then base ++ path else base ++ "/" ++ path

/-- The root or the single dot that a path begins with, and what is behind it. -/
def anchored : List Char → List Char × List Char
  | [] => ([], [])
  | c :: rest =>
    if c = '/' then (['/'], rest)
    else if c = '.' && (rest.isEmpty || rest.head? == some '/') then (['.'], rest)
    else ([], c :: rest)

/-- Pieces without those at the end that lead nowhere. -/
def trimmed (pieces : List (List Char)) : List (List Char) :=
  (pieces.reverse.dropWhile fun piece => piece == [] || piece == ['.']).reverse

/-- The path of the enclosing folder, with the pieces in front of the last one as they are
written. -/
def parent? (path : String) : Option String :=
  let (anchor, body) := anchored path.toList
  match trimmed (body.splitOn '/') with
  | [] => if anchor = ['.'] then some "" else none
  | front => some (String.ofList (anchor ++ ['/'].intercalate (trimmed front.dropLast)))

/-- The path of the enclosing folder, or the folder itself where nothing encloses it. -/
def parent (path : String) : String :=
  (parent? path).getD "."

/-- Reversed pieces, and what is left of them each time that the last entry or step outwards is
taken off. -/
def shorterAndShorter : List (List Char) → List (List (List Char))
  | [] => []
  | piece :: outer =>
    if piece == [] || piece == ['.'] then shorterAndShorter outer
    else (piece :: outer) :: shorterAndShorter outer

/-- The path of a folder and of the folders around it, from the inside out.  Where a path begins is
not among them. -/
def outwards (path : String) : List String :=
  let (anchor, body) := anchored path.toList
  (shorterAndShorter (body.splitOn '/').reverse).map fun reversed =>
    String.ofList (anchor ++ ['/'].intercalate reversed.reverse)

/-- The greatest number of bytes of a name. -/
def maxNameSize : Nat := 255

/-- The greatest number of bytes of a path. -/
def maxSize : Nat := 4095

end TypeBridge.Path
