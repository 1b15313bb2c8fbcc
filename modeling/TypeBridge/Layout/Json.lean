import TypeBridge.Text.Quoted

/-!
# JSON documents

Values as they are written to a file: every item and every field on a line of its own, two spaces
deeper than what holds it.
-/

namespace TypeBridge

/-- A JSON value.  Fields keep their order. -/
inductive Json where
  | null
  | flag (value : Bool)
  | number (value : Nat)
  | text (content : String)
  | array (items : List Json)
  | object (fields : List (String × Json))
  deriving Inhabited

namespace Json

def texts (contents : List String) : Json :=
  .array (contents.map .text)

/-- A value or null. -/
def ofOption {α : Type} (encode : α → Json) (value : Option α) : Json :=
  (value.map encode).getD .null

/-- Lines between brackets, a comma behind each but the last. -/
def enclosed (front close margin : String) (parts : List String) : String :=
  if parts.isEmpty then front ++ close
  else
    let inside := parts.map fun part => "\n" ++ margin ++ "  " ++ part
    front ++ ",".intercalate inside ++ "\n" ++ margin ++ close

mutual

/-- The text of a value inside a margin. -/
def pretty (margin : String) : Json → String
  | null => "null"
  | flag value => if value then "true" else "false"
  | number value => toString value
  | text content => Text.quoted content
  | array items => enclosed "[" "]" margin (prettyItems (margin ++ "  ") items)
  | object fields => enclosed "\x7b" "\x7d" margin (prettyFields (margin ++ "  ") fields)

def prettyItems (margin : String) : List Json → List String
  | [] => []
  | item :: rest => item.pretty margin :: prettyItems margin rest

def prettyFields (margin : String) : List (String × Json) → List String
  | [] => []
  | (name, value) :: rest =>
    (Text.quoted name ++ ": " ++ value.pretty margin) :: prettyFields margin rest

end

/-- The document that holds a value. -/
def document (value : Json) : String :=
  value.pretty ""

end Json

end TypeBridge
