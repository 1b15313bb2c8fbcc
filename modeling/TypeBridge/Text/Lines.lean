/-!
# Lines

A text as lines.  A line ends with a newline, which may follow a carriage return; the end of the
last line may be missing.
-/

namespace TypeBridge.Text

/-- A line without the carriage return of its line end. -/
def withoutReturn (line : List Char) : List Char :=
  if line.getLast? = some '\r' then line.dropLast else line

/-- Lines whose ends are still to be cleaned: all but the last were ended by a newline. -/
def cleanEnds : List (List Char) → List (List Char)
  | [] => []
  | [last] => if last.isEmpty then [] else [last]
  | line :: rest => withoutReturn line :: cleanEnds rest

def lines (text : List Char) : List (List Char) :=
  cleanEnds (text.splitOn '\n')

end TypeBridge.Text
