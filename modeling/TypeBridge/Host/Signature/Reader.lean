import TypeBridge.Host.Signature
import TypeBridge.Text.Blank
import TypeBridge.Text.Front
import TypeBridge.Text.Letter
import TypeBridge.Text.Rest

/-!
# Reading type signatures

The grammar is

    type     := wildcard | base ("[]" | "...")*
    wildcard := "?" (("extends" | "super") type)?
    base     := name ("<" type ("," type)* ">")?
    name     := identifier ("." identifier)*

White space may stand before every token except the dot inside a name.  The words `extends` and
`super` are recognised behind `?` only when no identifier character follows, and the first dot of
`...` never continues a name.  Every reader returns what is left of its text together with a proof
that the text became shorter, and a failure carries the text it is stuck at.
-/

namespace TypeBridge.Signature

open Text (Rest Tail behindFront? behindFront?_eq_some_iff byteLength length_trimFront_le trimFront)

/-- What a reader would have accepted. -/
inductive Expected where
  | typeName
  | closingBracket
  | commaOrClosingAngle
  | endOfText
  deriving DecidableEq, Repr

def Expected.message : Expected → String
  | .typeName => "expected a type name"
  | .closingBracket => "expected `]`"
  | .commaOrClosingAngle => "expected `,` or `>`"
  | .endOfText => "unexpected trailing input"

/-- A failed reading, with the text that could not be read. -/
structure Stuck where
  expected : Expected
  unread : List Char
  deriving DecidableEq, Repr

/-- Characters that continue an identifier. -/
def isNameChar (c : Char) : Bool :=
  Text.Letter.isAlphanumeric c || c == '_' || c == '$'

/-- Characters that begin an identifier. -/
def isNameStart (c : Char) : Bool :=
  Text.Letter.isAlphabetic c || c == '_'

theorem length_lt_of_token {first : Char} {others text rest : List Char}
    (found : behindFront? (first :: others) (trimFront text) = some rest) :
    rest.length < text.length := by
  have := length_trimFront_le text
  rw [behindFront?_eq_some_iff.1 found, List.length_append, List.length_cons] at this
  omega

/-- Read one token, given by its first character and the others. -/
def token? (first : Char) (others text : List Char) : Option (Rest text) :=
  match found : behindFront? (first :: others) (trimFront text) with
  | none => none
  | some rest => some ⟨rest, length_lt_of_token found⟩

/-- Read a word that no identifier character follows. -/
def keyword? (first : Char) (others text : List Char) : Option (Rest text) :=
  (token? first others text).filter fun rest => !rest.1.head?.any isNameChar

def identifier (text : List Char) : Except Stuck (List Char × Rest text) :=
  match found : trimFront text with
  | [] => .error ⟨.typeName, []⟩
  | c :: others =>
    if isNameStart c then
      .ok (c :: others.takeWhile isNameChar, ⟨others.dropWhile isNameChar, by
        have := length_trimFront_le text
        have := (List.dropWhile_sublist isNameChar (l := others)).length_le
        rw [found, List.length_cons] at *
        omega⟩)
    else .error ⟨.typeName, c :: others⟩

/-- The text behind a dot that continues a name. -/
def dot? : (text : List Char) → Option (Rest text)
  | '.' :: '.' :: '.' :: _ => none
  | '.' :: rest => some (.behind '.' rest)
  | _ => none

/-- Read the further segments of a name, each with its dot. -/
def segments (text : List Char) : Except Stuck (List Char × Tail text) :=
  match dot? text with
  | none => .ok ([], ⟨text, by omega⟩)
  | some ⟨behindDot, _⟩ =>
    match identifier behindDot with
    | .error stuck => .error stuck
    | .ok (segment, ⟨behind, _⟩) =>
      match segments behind with
      | .error stuck => .error stuck
      | .ok (others, ⟨rest, _⟩) => .ok ('.' :: segment ++ others, ⟨rest, by omega⟩)
termination_by text.length

def name (text : List Char) : Except Stuck (String × Rest text) :=
  match identifier text with
  | .error stuck => .error stuck
  | .ok (first, ⟨behind, _⟩) =>
    match segments behind with
    | .error stuck => .error stuck
    | .ok (others, ⟨rest, _⟩) => .ok (String.ofList (first ++ others), ⟨rest, by omega⟩)

/-- Read array marks behind a type. -/
def arrays (element : Signature) (text : List Char) : Except Stuck (Signature × Tail text) :=
  match token? '[' [] text with
  | some ⟨behindOpen, _⟩ =>
    match token? ']' [] behindOpen with
    | none => .error ⟨.closingBracket, trimFront behindOpen⟩
    | some ⟨behindClose, _⟩ =>
      match arrays (.array element) behindClose with
      | .error stuck => .error stuck
      | .ok (whole, ⟨rest, _⟩) => .ok (whole, ⟨rest, by omega⟩)
  | none =>
    match token? '.' ['.', '.'] text with
    | none => .ok (element, ⟨trimFront text, length_trimFront_le text⟩)
    | some ⟨behindDots, _⟩ =>
      match arrays (.array element) behindDots with
      | .error stuck => .error stuck
      | .ok (whole, ⟨rest, _⟩) => .ok (whole, ⟨rest, by omega⟩)
termination_by text.length

mutual

def type (text : List Char) : Except Stuck (Signature × Rest text) :=
  match token? '?' [] text with
  | some ⟨behindMark, _⟩ =>
    match keyword? 'e' ['x', 't', 'e', 'n', 'd', 's'] behindMark with
    | some ⟨behindWord, _⟩ =>
      match type behindWord with
      | .error stuck => .error stuck
      | .ok (bound, ⟨rest, _⟩) => .ok (.anyBelow bound, ⟨rest, by omega⟩)
    | none =>
      match keyword? 's' ['u', 'p', 'e', 'r'] behindMark with
      | some ⟨behindWord, _⟩ =>
        match type behindWord with
        | .error stuck => .error stuck
        | .ok (bound, ⟨rest, _⟩) => .ok (.anyAbove bound, ⟨rest, by omega⟩)
      | none => .ok (.anything, ⟨behindMark, by omega⟩)
  | none =>
    match name text with
    | .error stuck => .error stuck
    | .ok (head, ⟨behindName, _⟩) =>
      match token? '<' [] behindName with
      | none =>
        match arrays (.named head []) behindName with
        | .error stuck => .error stuck
        | .ok (whole, ⟨rest, _⟩) => .ok (whole, ⟨rest, by omega⟩)
      | some ⟨behindOpen, _⟩ =>
        match arguments behindOpen with
        | .error stuck => .error stuck
        | .ok (args, ⟨behindClose, _⟩) =>
          match arrays (.named head args) behindClose with
          | .error stuck => .error stuck
          | .ok (whole, ⟨rest, _⟩) => .ok (whole, ⟨rest, by omega⟩)
termination_by (text.length, 0)

/-- Read type arguments up to the closing angle. -/
def arguments (text : List Char) : Except Stuck (List Signature × Rest text) :=
  match type text with
  | .error stuck => .error stuck
  | .ok (arg, ⟨behindArg, _⟩) =>
    match token? ',' [] behindArg with
    | some ⟨behindComma, _⟩ =>
      match arguments behindComma with
      | .error stuck => .error stuck
      | .ok (others, ⟨rest, _⟩) => .ok (arg :: others, ⟨rest, by omega⟩)
    | none =>
      match token? '>' [] behindArg with
      | some ⟨behindClose, _⟩ => .ok ([arg], ⟨behindClose, by omega⟩)
      | none => .error ⟨.commaOrClosingAngle, trimFront behindArg⟩
termination_by (text.length, 1)

end

/-- Read a type that fills the whole text. -/
def ofChars (text : List Char) : Except Stuck Signature :=
  match type text with
  | .error stuck => .error stuck
  | .ok (signature, rest) =>
    match trimFront rest.1 with
    | [] => .ok signature
    | unread => .error ⟨.endOfText, unread⟩

/-- Why a text is no signature, and how many bytes of it were read. -/
structure ReadError where
  expected : Expected
  offset : Nat
  deriving DecidableEq, Repr

def ReadError.message (error : ReadError) : String :=
  error.expected.message ++ " at offset " ++ toString error.offset

/-- Read a signature. -/
def ofText (text : String) : Except ReadError Signature :=
  match ofChars text.toList with
  | .ok signature => .ok signature
  | .error stuck =>
    .error ⟨stuck.expected, byteLength text.toList - byteLength stuck.unread⟩

end TypeBridge.Signature
