import TypeBridge.Layout.Fragment
import TypeBridge.Text.Blank
import TypeBridge.Text.Lines

/-!
# Indented pages

Writing lines, comments and fragments one below the other, each line indented by the current depth.
-/

namespace TypeBridge

/-- How one level of indentation is written. -/
inductive Indent where
  | spaces (width : Nat)
  | tab
  deriving DecidableEq, Repr

/-- One level of indentation.  Widths of two and of eight are honoured, every other one is four. -/
def Indent.unit : Indent → String
  | .spaces 2 => "  "
  | .spaces 8 => "        "
  | .spaces _ => "    "
  | .tab => "\t"

def Indent.script : Indent := .spaces 2

/-- A text under construction. -/
structure Page where
  indent : Indent
  depth : Nat
  text : String
  deriving DecidableEq, Repr

namespace Page

def empty (indent : Indent) : Page :=
  ⟨indent, 0, ""⟩

/-- The indentation of some depth. -/
def margin (indent : Indent) (depth : Nat) : String :=
  String.join (List.replicate depth indent.unit)

def line (page : Page) (content : String) : Page :=
  { page with text := page.text ++ margin page.indent page.depth ++ content ++ "\n" }

def blank (page : Page) : Page :=
  { page with text := page.text ++ "\n" }

/-- Go one level deeper. -/
def deeper (page : Page) : Page :=
  { page with depth := page.depth + 1 }

/-- Go one level back; there is nothing above the first one. -/
def shallower (page : Page) : Page :=
  { page with depth := page.depth - 1 }

/-- The lines of a documentation comment: one line for a text of at most one line, otherwise a
block with a star in front of each line. -/
def commentLines (text : String) : List String :=
  match Text.lines text.toList with
  | first :: second :: rest =>
    "/**" :: (first :: second :: rest).map (fun line =>
      match Text.trimBack line with
      | [] => " *"
      | content => " * " ++ String.ofList content) ++ [" */"]
  | _ => ["/** " ++ String.ofList (Text.trim text.toList) ++ " */"]

def comment (page : Page) (text : String) : Page :=
  (commentLines text).foldl line page

def line? (page : Page) (content : Option String) : Page :=
  (content.map page.line).getD page

mutual

/-- Write a fragment. -/
def write (page : Page) : Fragment → Page
  | .line content => page.line content
  | .blank => page.blank
  | .block header body close => ((page.line header).deeper.writeAll body).shallower.line? close
  | .indented body => (page.deeper.writeAll body).shallower
  | .comment text => page.comment text

def writeAll (page : Page) : List Fragment → Page
  | [] => page
  | fragment :: rest => (page.write fragment).writeAll rest

end

/-- The text of some fragments alone. -/
def render (indent : Indent) (fragments : List Fragment) : String :=
  ((empty indent).writeAll fragments).text

end Page

end TypeBridge
