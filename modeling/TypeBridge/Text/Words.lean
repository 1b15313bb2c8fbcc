import TypeBridge.Text.Letter

/-!
# Words of an identifier

An identifier is read as a list of lowercase words and written back in one of three cases.  Words
are parted by separators, and inside a run of letters by a change of case.
-/

namespace TypeBridge.Text

/-- Characters that part words and belong to none. -/
def isSeparator (c : Char) : Bool :=
  c == '_' || c == '-' || c == ' ' || c == '.' || c == '$'

/-- A capital opens a word after a small letter or a digit, and after another capital when a small
letter follows, so that `HTTPServer` has the words `http` and `server`. -/
def opensWord (before c : Char) (after : Option Char) : Bool :=
  Letter.isUpper c &&
    (Letter.isLower before || before.isDigit ||
      (Letter.isUpper before && after.any Letter.isLower))

/-- Put a character at the front of the first word. -/
def extendFirst (c : Char) : List (List Char) → List (List Char)
  | [] => [[c]]
  | word :: rest => (c :: word) :: rest

/-- Cut a piece without separators at its changes of case. -/
def cutAtCase : List Char → List (List Char)
  | [] => []
  | [c] => [[c]]
  | before :: c :: rest =>
    if opensWord before c rest.head? then [before] :: cutAtCase (c :: rest)
    else extendFirst before (cutAtCase (c :: rest))

/-- The lowercase words of an identifier. -/
def words (text : String) : List (List Char) :=
  ((text.toList.splitOnP isSeparator).flatMap cutAtCase).map (·.flatMap Letter.lowered)

/-- Raise the first letter. -/
def capitalized : List Char → List Char
  | [] => []
  | c :: rest => Letter.raised c ++ rest

/-- Words run together, each with a capital. -/
def pascalCase (text : String) : String :=
  String.ofList ((words text).flatMap capitalized)

/-- Words run together, each but the first with a capital. -/
def camelCase (text : String) : String :=
  match words text with
  | [] => ""
  | word :: rest => String.ofList (word ++ rest.flatMap capitalized)

/-- Lowercase words joined by hyphens. -/
def kebabCase (text : String) : String :=
  String.ofList (['-'].intercalate (words text))

/-- Cutting loses no character. -/
theorem flatten_cutAtCase (piece : List Char) : (cutAtCase piece).flatten = piece := by
  fun_induction cutAtCase piece with
  | case1 => rfl
  | case2 => rfl
  | case3 before c rest opens ih => simp [ih]
  | case4 before c rest opens ih =>
    cases cut : cutAtCase (c :: rest) with
    | nil => simp [cut] at ih
    | cons word others => simpa [extendFirst, cut] using ih

end TypeBridge.Text
