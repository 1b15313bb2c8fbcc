import TypeBridge.Toml.Moment

/-!
# TOML scalars

What is written without quotes: numbers, truth values, dates and times.  Such a text ends at a mark
of the grammar; blanks belong to it when a word follows them, so that a date and a time parted by a
blank are read as one.
-/

namespace TypeBridge.Toml

/-- Blanks inside a line. -/
def isSpace (c : Char) : Bool :=
  c == ' ' || c == '\t'

/-- Characters of words: all but blanks, line breaks and the marks of the grammar. -/
def isBareChar (c : Char) : Bool :=
  !(isSpace c || ['\n', '\r', '#', '=', ',', '[', ']', '\x7b', '\x7d'].contains c)

/-- Whether a word begins here; none begins with a point or a quote. -/
def beginsWord (text : List Char) : Bool :=
  text.head?.any fun c => isBareChar c && c ≠ '.' && c ≠ '"' && c ≠ '\''

/-- The text of the scalar without quotes at the front. -/
def bareText : List Char → List Char
  | [] => []
  | c :: rest =>
    if isBareChar c || (isSpace c && beginsWord (rest.dropWhile isSpace)) then c :: bareText rest
    else []

def scalar? (text : List Char) : Option Scalar :=
  if text = ['t', 'r', 'u', 'e'] then some (.flag true)
  else if text = ['f', 'a', 'l', 's', 'e'] then some (.flag false)
  else
    match moment? text with
    | some kept => some (.moment (String.ofList kept))
    | none => ((integer? text).map Scalar.integer).or ((decimal? text).map Scalar.decimal)

end TypeBridge.Toml
