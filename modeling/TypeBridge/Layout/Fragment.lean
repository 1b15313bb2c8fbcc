/-!
# Code fragments

Code as a tree of lines and blocks, before anything is indented.
-/

namespace TypeBridge

/-- A piece of code. -/
inductive Fragment where
  | line (text : String)
  | blank
  /-- A header line, an indented body, and an optional closing line. -/
  | block (header : String) (body : List Fragment) (close : Option String)
  | indented (body : List Fragment)
  | comment (text : String)
  deriving Inhabited

end TypeBridge
