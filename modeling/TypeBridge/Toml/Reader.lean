import TypeBridge.Text.Rest
import TypeBridge.Toml.Scalars

/-!
# Reading TOML text

The grammar of TOML: a document is a list of statements, each a header or a pair.  What the
statements mean together is left to `TypeBridge.Toml.Document`.  Every reader returns what is
left of its text together with a proof of progress; a malformed text has no reading.
-/

namespace TypeBridge.Toml

open Text (Rest Tail byteLength)

def skip (drop : Char → Bool) (text : List Char) : Tail text :=
  ⟨text.dropWhile drop, (List.dropWhile_sublist drop).length_le⟩

/-- Characters that may stand in comments and in quotes: no control character but the tab. -/
def isPlain (c : Char) : Bool :=
  c == '\t' || (0x20 ≤ c.toNat && c.toNat ≠ 0x7F)

/-- The text behind a line break. -/
def lineBreak? : (text : List Char) → Option (Rest text)
  | '\n' :: rest => some (.behind '\n' rest)
  | '\r' :: '\n' :: rest => some ((Rest.behind '\n' rest).within '\r')
  | _ => none

/-- The text behind one given character. -/
def char? (wanted : Char) : (text : List Char) → Option (Rest text)
  | [] => none
  | c :: rest => if c = wanted then some (.behind c rest) else none

/-- The text behind one given character, with a gap in front of it. -/
def behindGap? (gap : (text : List Char) → Tail text) (wanted : Char) (text : List Char) :
    Option (Rest text) :=
  match gap text with
  | ⟨start, _⟩ =>
    match char? wanted start with
    | none => none
    | some ⟨rest, _⟩ => some ⟨rest, by omega⟩

/-- The text behind one given character, with blanks in front of it. -/
def spaced? (wanted : Char) (text : List Char) : Option (Rest text) :=
  behindGap? (skip isSpace) wanted text

/-- Drop blanks and a comment up to the end of the line. -/
def skipToLineEnd (text : List Char) : Tail text :=
  match spaced? '#' text with
  | none => skip isSpace text
  | some comment => comment.tail.andThen (skip isPlain comment.1)

/-- Drop blanks, comments and line breaks. -/
def skipLines (text : List Char) : Tail text :=
  match skipToLineEnd text with
  | ⟨rest, _⟩ =>
    match lineBreak? rest with
    | none => ⟨rest, by omega⟩
    | some ⟨behind, _⟩ =>
      match skipLines behind with
      | ⟨further, _⟩ => ⟨further, by omega⟩
termination_by text.length

/-- Nothing but hexadecimal digits. -/
def codePoint? (digits : List Char) : Option Char :=
  let code := digitsValue 16 digits
  if digits.all isHexDigit ∧ code.isValidChar then some (Char.ofNat code) else none

/-- The character that stands behind a backslash. -/
def escape? : (text : List Char) → Option (Char × Rest text)
  | 'b' :: rest => some ('\x08', .behind 'b' rest)
  | 't' :: rest => some ('\t', .behind 't' rest)
  | 'n' :: rest => some ('\n', .behind 'n' rest)
  | 'f' :: rest => some ('\x0c', .behind 'f' rest)
  | 'r' :: rest => some ('\r', .behind 'r' rest)
  | 'e' :: rest => some ('\x1b', .behind 'e' rest)
  | '"' :: rest => some ('"', .behind '"' rest)
  | '\\' :: rest => some ('\\', .behind '\\' rest)
  | 'x' :: a :: b :: rest =>
    (codePoint? [a, b]).map fun code => (code, (Rest.behind b rest).within a |>.within 'x')
  | 'u' :: a :: b :: c :: d :: rest =>
    (codePoint? [a, b, c, d]).map fun code =>
      (code, (Rest.behind d rest).within c |>.within b |>.within a |>.within 'u')
  | 'U' :: a :: b :: c :: d :: e :: f :: g :: h :: rest =>
    (codePoint? [a, b, c, d, e, f, g, h]).map fun code =>
      (code, (Rest.behind h rest).within g |>.within f |>.within e |>.within d |>.within c
        |>.within b |>.within a |>.within 'U')
  | _ => none

/-- The content of a quoted line up to the quote that ends it. -/
def quotedLine (quote : Char) (escapes : Bool) (text : List Char) :
    Option (List Char × Rest text) :=
  match text with
  | [] => none
  | c :: rest =>
    if c = quote then some ([], .behind c rest)
    else if c = '\\' ∧ escapes then
      match escape? rest with
      | none => none
      | some (code, ⟨behind, shorter⟩) =>
        (quotedLine quote escapes behind).map fun (content, further) =>
          (code :: content, (Rest.andRead ⟨behind, shorter⟩ further).within c)
    else if isPlain c then
      (quotedLine quote escapes rest).map fun (content, further) =>
        (c :: content, further.within c)
    else none
termination_by text.length
decreasing_by all_goals simp only [List.length_cons]; omega

def skipBlankLines (text : List Char) : Tail text :=
  match skip isSpace text with
  | ⟨rest, _⟩ =>
    match lineBreak? rest with
    | none => ⟨rest, by omega⟩
    | some ⟨behind, _⟩ =>
      match skipBlankLines behind with
      | ⟨further, _⟩ => ⟨further, by omega⟩
termination_by text.length

/-- The text behind a backslash that joins two lines, without the blanks that follow. -/
def joinedLines? (text : List Char) : Option (Rest text) :=
  match skip isSpace text with
  | ⟨rest, _⟩ =>
    match lineBreak? rest with
    | none => none
    | some ⟨behind, _⟩ =>
      match skipBlankLines behind with
      | ⟨further, _⟩ => some ⟨further, by omega⟩

/-- At most some number of quotes at the front. -/
def leadingQuotes (quote : Char) : Nat → (text : List Char) → List Char × Tail text
  | 0, text => ([], .whole text)
  | _ + 1, [] => ([], .whole [])
  | count + 1, c :: rest =>
    if c = quote then
      let (further, behind) := leadingQuotes quote count rest
      (c :: further, (behind.within c).tail)
    else ([], .whole (c :: rest))

/-- The content of a block up to the three quotes that end it.  One or two further quotes belong to
the content. -/
def quotedBlock (quote : Char) (escapes : Bool) (text : List Char) :
    Option (List Char × Rest text) :=
  match text with
  | [] => none
  | c :: rest =>
    if c = quote then
      match rest with
      | d :: e :: behind =>
        if d = quote ∧ e = quote then
          let (further, behindAll) := leadingQuotes quote 2 behind
          some (further, ((behindAll.within e).within d).within c)
        else
          (quotedBlock quote escapes (d :: e :: behind)).map fun (content, further) =>
            (c :: content, further.within c)
      | _ => none
    else if c = '\\' ∧ escapes then
      match joinedLines? rest with
      | some ⟨behind, shorter⟩ =>
        (quotedBlock quote escapes behind).map fun (content, further) =>
          (content, (Rest.andRead ⟨behind, shorter⟩ further).within c)
      | none =>
        match escape? rest with
        | none => none
        | some (code, ⟨behind, shorter⟩) =>
          (quotedBlock quote escapes behind).map fun (content, further) =>
            (code :: content, (Rest.andRead ⟨behind, shorter⟩ further).within c)
    else if isPlain c ∨ c = '\n' ∨ (c = '\r' ∧ rest.head? = some '\n') then
      (quotedBlock quote escapes rest).map fun (content, further) =>
        (c :: content, further.within c)
    else none
termination_by text.length
decreasing_by all_goals simp only [List.length_cons] at *; omega

/-- The content of quotes, the opening ones included in the text. -/
def quoted? (blocks : Bool) (text : List Char) : Option (List Char × Rest text) :=
  match text with
  | quote :: rest =>
    if quote = '"' ∨ quote = '\'' then
      let escapes := quote == '"'
      match rest with
      | c :: d :: behind =>
        if c = quote ∧ d = quote ∧ blocks then
          let start : Tail behind :=
            match lineBreak? behind with
            | some further => further.tail
            | none => .whole behind
          (quotedBlock quote escapes start.1).map fun (content, further) =>
            (content, (start.andRead further).within d |>.within c |>.within quote)
        else
          (quotedLine quote escapes (c :: d :: behind)).map fun (content, further) =>
            (content, further.within quote)
      | short =>
        (quotedLine quote escapes short).map fun (content, further) =>
          (content, further.within quote)
    else none
  | [] => none

/-- Characters of a key without quotes. -/
def isKeyChar (c : Char) : Bool :=
  c.isAlphanum || c == '_' || c == '-'

/-- One key without dots. -/
def simpleKey? (text : List Char) : Option (String × Rest text) :=
  match quoted? false text with
  | some (content, rest) => some (String.ofList content, rest)
  | none =>
    match text with
    | [] => none
    | c :: others =>
      if isKeyChar c then
        some (String.ofList (c :: others.takeWhile isKeyChar), ⟨others.dropWhile isKeyChar, by
          have := (List.dropWhile_sublist isKeyChar (l := others)).length_le
          simp only [List.length_cons]
          omega⟩)
      else none

/-- How many parts a dotted key may have, and how many arrays and inline tables may stand one inside
the other. -/
def maxDepth : Nat := 80

/-- A dotted key of a limited number of parts: the keys in front, the last key, and the text behind
it. -/
def keyWithin? : Nat → (text : List Char) → Option ((List String × String) × Rest text)
  | 0, _ => none
  | room + 1, text =>
    match simpleKey? text with
    | none => none
    | some (first, ⟨behind, _⟩) =>
      match spaced? '.' behind with
      | none => some (([], first), ⟨behind, by omega⟩)
      | some ⟨behindDot, _⟩ =>
        match skip isSpace behindDot with
        | ⟨start, _⟩ =>
          match keyWithin? room start with
          | none => none
          | some ((others, last), ⟨rest, _⟩) => some ((first :: others, last), ⟨rest, by omega⟩)

def key? (text : List Char) : Option ((List String × String) × Rest text) :=
  keyWithin? maxDepth text

/-- A scalar without quotes. -/
def bare? (text : List Char) : Option (Scalar × Rest text) :=
  match text with
  | [] => none
  | c :: others =>
    match bareText (c :: others) with
    | [] => none
    | first :: further =>
      (scalar? (first :: further)).map fun scalar =>
        (scalar, ⟨others.drop further.length,
          by simp only [List.length_drop, List.length_cons]; omega⟩)

/-- The bytes between two positions, each given by the text behind it. -/
def spanBetween (size : Nat) (start stop : List Char) : Span :=
  ⟨size - byteLength start, size - byteLength stop⟩

/-- A value as written: inline tables keep their pairs in order. -/
inductive Written where
  | scalar (span : Span) (content : Scalar)
  | array (span : Span) (items : List Written)
  | table (pairs : List (List String × String × Written))

mutual

/-- Read a value.  The whole document is `size` bytes long, and `room` is how many more arrays and
inline tables may be opened one inside the other. -/
def value? (size room : Nat) (text : List Char) : Option (Written × Rest text) :=
  match quoted? true text with
  | some (content, ⟨rest, _⟩) =>
    some (.scalar (spanBetween size text rest) (.text (String.ofList content)), ⟨rest, by omega⟩)
  | none =>
    match room, char? '[' text, char? '\x7b' text with
    | room + 1, some ⟨behindOpen, _⟩, _ =>
      match items? size room behindOpen with
      | none => none
      | some (items, ⟨rest, _⟩) =>
        some (.array (spanBetween size text rest) items, ⟨rest, by omega⟩)
    | room + 1, none, some ⟨behindOpen, _⟩ =>
      match fields? size room behindOpen with
      | none => none
      | some (pairs, ⟨rest, _⟩) => some (.table pairs, ⟨rest, by omega⟩)
    | _, _, _ =>
      match bare? text with
      | none => none
      | some (content, ⟨rest, _⟩) =>
        some (.scalar (spanBetween size text rest) content, ⟨rest, by omega⟩)
termination_by 3 * text.length + 0

/-- Read array items up to the closing bracket; a comma may stand behind the last one. -/
def items? (size room : Nat) (text : List Char) : Option (List Written × Rest text) :=
  match skipLines text with
  | ⟨start, _⟩ =>
    match char? ']' start with
    | some ⟨rest, _⟩ => some ([], ⟨rest, by omega⟩)
    | none =>
      match value? size room start with
      | none => none
      | some (item, ⟨behindItem, _⟩) =>
        match skipLines behindItem with
        | ⟨behind, _⟩ =>
          match char? ',' behind with
          | some ⟨behindComma, _⟩ =>
            match items? size room behindComma with
            | none => none
            | some (others, ⟨rest, _⟩) => some (item :: others, ⟨rest, by omega⟩)
          | none =>
            match char? ']' behind with
            | none => none
            | some ⟨rest, _⟩ => some ([item], ⟨rest, by omega⟩)
termination_by 3 * text.length + 1

/-- Read the pairs of an inline table up to the closing brace; a comma may stand behind the last
one.  Lines may end anywhere in the table but inside a key. -/
def fields? (size room : Nat) (text : List Char) :
    Option (List (List String × String × Written) × Rest text) :=
  match skipLines text with
  | ⟨start, _⟩ =>
    match char? '\x7d' start with
    | some ⟨rest, _⟩ => some ([], ⟨rest, by omega⟩)
    | none =>
      match pair? skipLines size room start with
      | none => none
      | some (pair, ⟨behindPair, _⟩) =>
        match skipLines behindPair with
        | ⟨behind, _⟩ =>
          match char? ',' behind with
          | some ⟨behindComma, _⟩ =>
            match fields? size room behindComma with
            | none => none
            | some (others, ⟨rest, _⟩) => some (pair :: others, ⟨rest, by omega⟩)
          | none =>
            match char? '\x7d' behind with
            | none => none
            | some ⟨rest, _⟩ => some ([pair], ⟨rest, by omega⟩)
termination_by 3 * text.length + 2

/-- Read a key, an equals sign and a value, with a gap in front of each. -/
def pair? (gap : (text : List Char) → Tail text) (size room : Nat) (text : List Char) :
    Option ((List String × String × Written) × Rest text) :=
  match gap text with
  | ⟨start, _⟩ =>
    match key? start with
    | none => none
    | some ((path, key), ⟨behindKey, _⟩) =>
      match behindGap? gap '=' behindKey with
      | none => none
      | some ⟨behindSign, _⟩ =>
        match gap behindSign with
        | ⟨valueStart, _⟩ =>
          match value? size room valueStart with
          | none => none
          | some (value, ⟨rest, _⟩) => some ((path, key, value), ⟨rest, by omega⟩)
termination_by 3 * text.length + 1

end

/-- One line of a document. -/
inductive Statement where
  /-- `[path.key]`, or `[[path.key]]` when an element is added to an array. -/
  | header (element : Bool) (path : List String) (key : String)
  /-- `path.key = value`. -/
  | pair (path : List String) (key : String) (value : Written)

/-- Read a header, the opening bracket included in the text. -/
def header? (text : List Char) : Option (Statement × Rest text) :=
  match char? '[' text with
  | none => none
  | some ⟨behindOpen, _⟩ =>
    let inner : Bool × Tail behindOpen :=
      match char? '[' behindOpen with
      | some ⟨behindSecond, _⟩ => (true, ⟨behindSecond, by omega⟩)
      | none => (false, ⟨behindOpen, by omega⟩)
    match skip isSpace inner.2.1 with
    | ⟨start, _⟩ =>
      match key? start with
      | none => none
      | some ((path, key), ⟨behindKey, _⟩) =>
        match spaced? ']' behindKey with
        | none => none
        | some ⟨behindClose, _⟩ =>
          if inner.1 then
            match char? ']' behindClose with
            | none => none
            | some ⟨rest, _⟩ => some (.header true path key, ⟨rest, by
                have := inner.2.2
                omega⟩)
          else some (.header false path key, ⟨behindClose, by
            have := inner.2.2
            omega⟩)

/-- Read a header, or a pair that begins on one line. -/
def statement? (size : Nat) (text : List Char) : Option (Statement × Rest text) :=
  match header? text with
  | some found => some found
  | none =>
    match pair? (skip isSpace) size maxDepth text with
    | none => none
    | some ((path, key, value), rest) => some (.pair path key value, rest)

/-- Read all statements of a document, each on lines of its own. -/
def statements? (size : Nat) (text : List Char) : Option (List Statement) :=
  match skipLines text with
  | ⟨[], _⟩ => some []
  | ⟨c :: others, _⟩ =>
    match statement? size (c :: others) with
    | none => none
    | some (statement, ⟨behind, _⟩) =>
      match skipToLineEnd behind with
      | ⟨[], _⟩ => some [statement]
      | ⟨lineEnd, _⟩ =>
        match lineBreak? lineEnd with
        | none => none
        | some ⟨rest, _⟩ =>
          match statements? size rest with
          | none => none
          | some others => some (statement :: others)
termination_by text.length
decreasing_by simp only [List.length_cons] at *; omega

end TypeBridge.Toml
