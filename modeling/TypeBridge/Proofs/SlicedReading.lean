import TypeBridge.Proofs.SignatureDerivations

/-!
# Reading signatures at byte positions

A reader can keep the whole text and a byte position in it, and slice the text there when it needs
what comes next.  A slice fails beyond the end of the text and inside of a character, and calls may
be nested up to a given depth only: a reading that would go deeper is lost.

No reading is lost when the depth exceeds twice the length of the text.  No slice fails, and what is
read or where a reader is stuck is what the readers of the text itself say.
-/

namespace TypeBridge

namespace Text

/-- The texts in front of a byte position and behind it.  There are none beyond the end of a text
and inside of a character. -/
def cutAt? : List Char → Nat → Option (List Char × List Char)
  | text, 0 => some ([], text)
  | [], _ + 1 => none
  | c :: text, position + 1 =>
    if c.utf8Size ≤ position + 1 then
      (cutAt? text (position + 1 - c.utf8Size)).map fun (front, rest) => (c :: front, rest)
    else none

theorem byteLength_append (front rest : List Char) :
    byteLength (front ++ rest) = byteLength front + byteLength rest := by
  induction front with
  | nil => simp [byteLength]
  | cons c front ih =>
    rw [List.cons_append, byteLength, byteLength, ih, Nat.add_assoc]

theorem utf8ByteSize_ofList (text : List Char) :
    (String.ofList text).utf8ByteSize = byteLength text := by
  induction text with
  | nil => rfl
  | cons c text ih =>
    have split : String.ofList (c :: text) = String.singleton c ++ String.ofList text := by
      rw [String.singleton_eq_ofList, ← String.ofList_append]
      rfl
    rw [split, String.utf8ByteSize_append, ih, String.utf8ByteSize_singleton, byteLength]

theorem cutAt?_append (front rest : List Char) :
    cutAt? (front ++ rest) (byteLength front) = some (front, rest) := by
  induction front with
  | nil => rw [List.nil_append, byteLength, cutAt?]
  | cons c front ih =>
    obtain ⟨size, positive⟩ : ∃ size, c.utf8Size + byteLength front = size + 1 :=
      Nat.exists_eq_add_one.2 (Nat.add_pos_left c.utf8Size_pos _)
    have further : size + 1 - c.utf8Size = byteLength front := by omega
    rw [byteLength, List.cons_append, positive, cutAt?, if_pos (by omega), further, ih]
    rfl

theorem append_of_cutAt? {text front rest : List Char} {position : Nat}
    (cut : cutAt? text position = some (front, rest)) :
    text = front ++ rest ∧ byteLength front = position := by
  fun_induction cutAt? text position generalizing front with
  | case1 text =>
    cases cut
    exact ⟨rfl, rfl⟩
  | case2 => cases cut
  | case3 c text position fits ih =>
    obtain ⟨⟨inner, _⟩, further, same⟩ := Option.map_eq_some_iff.1 cut
    cases same
    obtain ⟨rfl, size⟩ := ih further
    refine ⟨rfl, ?_⟩
    rw [byteLength]
    omega
  | case4 => cases cut

/-- The front of a text is cut where the text is, up to the end of the front. -/
theorem isSome_cutAt?_front_iff {front rest : List Char} {position : Nat} :
    (cutAt? front position).isSome = true ↔
      position ≤ byteLength front ∧ (cutAt? (front ++ rest) position).isSome = true := by
  rw [Option.isSome_iff_exists, Option.isSome_iff_exists]
  constructor
  · rintro ⟨⟨before, after⟩, cut⟩
    obtain ⟨rfl, rfl⟩ := append_of_cutAt? cut
    rw [byteLength_append, List.append_assoc, cutAt?_append]
    exact ⟨Nat.le_add_right _ _, _, rfl⟩
  · rintro ⟨short, ⟨before, after⟩, cut⟩
    obtain ⟨split, rfl⟩ := append_of_cutAt? cut
    rcases List.append_eq_append_iff.1 split with ⟨part, rfl, -⟩ | ⟨part, rfl, -⟩
    · cases part with
      | nil =>
        have cut := cutAt?_append front []
        rw [List.append_nil] at cut ⊢
        exact ⟨_, cut⟩
      | cons c part =>
        have := c.utf8Size_pos
        rw [byteLength_append, byteLength] at short
        omega
    · exact ⟨_, cutAt?_append before part⟩

/-- A text is cut at its valid positions. -/
theorem isSome_cutAt?_iff {text : String} {position : Nat} :
    (cutAt? text.toList position).isSome = true ↔
      (⟨position⟩ : String.Pos.Raw).IsValid text := by
  rw [Option.isSome_iff_exists, String.Pos.Raw.isValid_iff_exists_append]
  constructor
  · rintro ⟨⟨front, rest⟩, cut⟩
    obtain ⟨split, size⟩ := append_of_cutAt? cut
    refine ⟨String.ofList front, String.ofList rest, ?_, ?_⟩
    · rw [← String.ofList_append, ← split, String.ofList_toList]
    · rw [String.rawEndPos, utf8ByteSize_ofList, size]
  · rintro ⟨front, rest, rfl, here⟩
    have size := utf8ByteSize_ofList front.toList
    rw [String.ofList_toList] at size
    have position_eq : position = byteLength front.toList :=
      (congrArg String.Pos.Raw.byteIdx here).trans size
    rw [position_eq, String.toList_append]
    exact ⟨_, cutAt?_append front.toList rest.toList⟩

end Text

namespace Signature

open Text (behindFront? byteLength byteLength_append cutAt? cutAt?_append trimFront)

/-- What ends a reading at positions early. -/
inductive Halt where
  /-- A slice begins or ends beyond the end of the text or inside of a character. -/
  | badSlice (position : Nat)
  | stuck (error : ReadError)
  deriving DecidableEq, Repr

/-- A reading at positions.  It may be lost. -/
abbrev Sliced : Type → Type :=
  ExceptT Halt Option

namespace Sliced

section Readers

variable {α : Type} (whole : List Char)

def lost : Sliced α :=
  ExceptT.mk none

def stuckAt (expected : Expected) (position : Nat) : Sliced α :=
  throw (.stuck ⟨expected, position⟩)

/-- The text behind a position. -/
def behind (position : Nat) : Sliced (List Char) :=
  match cutAt? whole position with
  | some (_, rest) => pure rest
  | none => throw (.badSlice position)

/-- The text between two positions. -/
def between (start stop : Nat) : Sliced (List Char) :=
  match cutAt? whole stop with
  | none => throw (.badSlice stop)
  | some (front, _) =>
    match cutAt? front start with
    | none => throw (.badSlice start)
    | some (_, part) => pure part

/-- The position behind white space. -/
def skipBlanks (position : Nat) : Sliced Nat := do
  let rest ← behind whole position
  return byteLength whole - byteLength (trimFront rest)

/-- Whether a token stands behind white space, and the position behind what was read. -/
def token (expected : List Char) (position : Nat) : Sliced (Bool × Nat) := do
  let position ← skipBlanks whole position
  let rest ← behind whole position
  match behindFront? expected rest with
  | some _ => return (true, position + byteLength expected)
  | none => return (false, position)

/-- Whether a word stands there that no identifier character follows. -/
def keyword (word : List Char) (position : Nat) : Sliced (Bool × Nat) := do
  let position ← skipBlanks whole position
  let rest ← behind whole position
  match behindFront? word rest with
  | some after =>
    if after.head?.any isNameChar then return (false, position)
    else return (true, position + byteLength word)
  | none => return (false, position)

def identifier (position : Nat) : Sliced (List Char × Nat) := do
  let position ← skipBlanks whole position
  let rest ← behind whole position
  let length := byteLength (rest.takeWhile isNameChar)
  if length = 0 || !rest.head?.any isNameStart then stuckAt .typeName position
  else
    let word ← between whole position (position + length)
    return (word, position + length)

/-- The further segments of a name, each with its dot. -/
def segments : Nat → Nat → Sliced (List Char × Nat)
  | 0, _ => lost
  | depth + 1, position => do
    let rest ← behind whole position
    if ['.'].isPrefixOf rest && !(['.', '.', '.'].isPrefixOf rest) then
      let (segment, position) ← identifier whole (position + 1)
      let (others, position) ← segments depth position
      return ('.' :: segment ++ others, position)
    else return ([], position)

def name (depth position : Nat) : Sliced (String × Nat) := do
  let (first, position) ← identifier whole position
  let (others, position) ← segments whole depth position
  return (String.ofList (first ++ others), position)

def arrays : Nat → Signature → Nat → Sliced (Signature × Nat)
  | 0, _, _ => lost
  | depth + 1, element, position => do
    let (opens, position) ← token whole ['['] position
    if opens then
      let (closes, position) ← token whole [']'] position
      if closes then arrays depth (.array element) position else stuckAt .closingBracket position
    else
      let (dots, position) ← token whole ['.', '.', '.'] position
      if dots then arrays depth (.array element) position else return (element, position)

mutual

def type : Nat → Nat → Sliced (Signature × Nat)
  | 0, _ => lost
  | depth + 1, position => do
    let (mark, position) ← token whole ['?'] position
    if mark then
      let (below, position) ← keyword whole ['e', 'x', 't', 'e', 'n', 'd', 's'] position
      if below then
        let (bound, position) ← type depth position
        return (.anyBelow bound, position)
      else
        let (above, position) ← keyword whole ['s', 'u', 'p', 'e', 'r'] position
        if above then
          let (bound, position) ← type depth position
          return (.anyAbove bound, position)
        else return (.anything, position)
    else
      let (head, position) ← name whole depth position
      let (opens, position) ← token whole ['<'] position
      if opens then
        let (args, position) ← arguments depth position
        arrays whole depth (.named head args) position
      else arrays whole depth (.named head []) position

/-- Type arguments up to the closing angle. -/
def arguments : Nat → Nat → Sliced (List Signature × Nat)
  | 0, _ => lost
  | depth + 1, position => do
    let (arg, position) ← type depth position
    let (comma, position) ← token whole [','] position
    if comma then
      let (others, position) ← arguments depth position
      return (arg :: others, position)
    else
      let (closes, position) ← token whole ['>'] position
      if closes then return ([arg], position) else stuckAt .commaOrClosingAngle position

end

/-- A signature that fills the whole text. -/
def signature (depth : Nat) : Sliced Signature := do
  let (signature, position) ← type whole depth 0
  let position ← skipBlanks whole position
  if position < byteLength whole then stuckAt .endOfText position else return signature

end Readers

section Positions

variable {α : Type} {whole text rest : List Char}

/-- The position of what is left of a text. -/
def positionOf (whole text : List Char) : Nat :=
  byteLength whole - byteLength text

theorem positionOf_eq {front : List Char} (split : whole = front ++ text) :
    positionOf whole text = byteLength front := by
  rw [positionOf, split, byteLength_append]
  omega

theorem positionOf_append {front : List Char} (within : front ++ rest <:+ whole) :
    positionOf whole (front ++ rest) + byteLength front = positionOf whole rest := by
  obtain ⟨before, split⟩ := within
  have further : whole = (before ++ front) ++ rest := by rw [← split, List.append_assoc]
  rw [positionOf_eq split.symm, positionOf_eq further, byteLength_append]

theorem positionOf_whole (whole : List Char) : positionOf whole whole = 0 :=
  Nat.sub_self _

theorem suffix_of_append {front : List Char} (within : front ++ rest <:+ whole) : rest <:+ whole :=
  (List.suffix_append front rest).trans within

theorem trimFront_suffix (within : text <:+ whole) : trimFront text <:+ whole :=
  (List.dropWhile_suffix _).trans within

theorem behind_positionOf (within : text <:+ whole) :
    behind whole (positionOf whole text) = pure text := by
  obtain ⟨front, rfl⟩ := within
  rw [behind, positionOf_eq rfl, cutAt?_append]

theorem between_positionOf {word : List Char} (within : word ++ rest <:+ whole) :
    between whole (positionOf whole (word ++ rest)) (positionOf whole rest) = pure word := by
  obtain ⟨front, split⟩ := within
  have further : whole = (front ++ word) ++ rest := by rw [← split, List.append_assoc]
  rw [between, positionOf_eq further, positionOf_eq split.symm, further, cutAt?_append]
  dsimp only
  rw [cutAt?_append]

theorem skipBlanks_positionOf (within : text <:+ whole) :
    skipBlanks whole (positionOf whole text) = pure (positionOf whole (trimFront text)) := by
  rw [skipBlanks, behind_positionOf within]
  rfl

/-- A token is found where the text itself has it. -/
theorem token_positionOf (within : text <:+ whole) (expected : List Char) :
    token whole expected (positionOf whole text) =
      match behindFront? expected (trimFront text) with
      | some after => pure (true, positionOf whole after)
      | none => pure (false, positionOf whole (trimFront text)) := by
  have trimmed := trimFront_suffix within
  rw [token, skipBlanks_positionOf within, pure_bind, behind_positionOf trimmed, pure_bind]
  cases found : behindFront? expected (trimFront text) with
  | none => rfl
  | some after =>
    rw [Text.behindFront?_eq_some_iff.1 found] at trimmed ⊢
    dsimp only
    rw [positionOf_append trimmed]

theorem keyword_positionOf (within : text <:+ whole) (word : List Char) :
    keyword whole word (positionOf whole text) =
      match behindWord? word text with
      | some after => pure (true, positionOf whole after)
      | none => pure (false, positionOf whole (trimFront text)) := by
  have trimmed := trimFront_suffix within
  rw [keyword, skipBlanks_positionOf within, pure_bind, behind_positionOf trimmed, pure_bind,
    behindWord?]
  cases found : behindFront? word (trimFront text) with
  | none => rfl
  | some after =>
    rw [Text.behindFront?_eq_some_iff.1 found] at trimmed ⊢
    dsimp only
    rw [positionOf_append trimmed, Option.filter_some]
    cases after.head?.any isNameChar <;> rfl

/-- A reading of a text, with the positions of what is left of it. -/
def placed (whole : List Char) : Except Stuck (α × List Char) → Sliced (α × Nat)
  | .ok (result, rest) => pure (result, positionOf whole rest)
  | .error stuck => stuckAt stuck.expected (positionOf whole stuck.unread)

theorem identifier_positionOf (within : text <:+ whole) :
    identifier whole (positionOf whole text) = placed whole (bare (Signature.identifier text)) := by
  have trimmed := trimFront_suffix within
  rw [identifier, skipBlanks_positionOf within, pure_bind, behind_positionOf trimmed, pure_bind,
    bare_identifier]
  cases visible : trimFront text with
  | nil => rfl
  | cons c others =>
    rw [visible] at trimmed
    cases starts : isNameStart c with
    | false => simp [starts, placed]
    | true =>
      have word : (c :: others).takeWhile isNameChar = c :: others.takeWhile isNameChar :=
        List.takeWhile_cons_of_pos (isNameChar_of_isNameStart starts)
      have split : c :: others =
          (c :: others.takeWhile isNameChar) ++ others.dropWhile isNameChar := by
        rw [List.cons_append, List.takeWhile_append_dropWhile]
      have positive : byteLength (c :: others.takeWhile isNameChar) ≠ 0 := by
        have := c.utf8Size_pos
        rw [byteLength]
        omega
      dsimp only
      rw [word, List.head?_cons, Option.any_some, starts, if_pos rfl, if_neg (by simp [positive])]
      rw [split] at trimmed ⊢
      rw [positionOf_append trimmed, between_positionOf trimmed]
      rfl

/-- A dot continues a name exactly where it begins no `...`. -/
theorem isPrefixOf_dots_iff (text : List Char) :
    (['.'].isPrefixOf text && !(['.', '.', '.'].isPrefixOf text)) = (dot? text).isSome := by
  cases text with
  | nil => rfl
  | cons c rest =>
    by_cases dot : c = '.'
    · subst dot
      by_cases dots : ['.', '.', '.'].isPrefixOf ('.' :: rest) = true
      · obtain ⟨further, split⟩ := List.isPrefixOf_iff_prefix.1 dots
        rw [dots, ← split]
        rfl
      · have single : ∀ further, rest = '.' :: '.' :: further → False := by
          rintro further rfl
          exact dots rfl
        rw [dot?.eq_2 _ single, Bool.eq_false_iff.2 dots]
        rfl
    · rw [dot?_of_ne dot, List.isPrefixOf_cons_cons]
      have differs : ('.' == c) = false := beq_eq_false_iff_ne.2 (Ne.symm dot)
      rw [differs]
      rfl

/-- What follows a reading of a text follows it at its position. -/
theorem placed_bind {β : Type} {first : Except Stuck (α × List Char)}
    {next : α × List Char → Except Stuck (β × List Char)} {follow : α × Nat → Sliced (β × Nat)}
    (follows : ∀ result rest, first = .ok (result, rest) →
      follow (result, positionOf whole rest) = placed whole (next (result, rest))) :
    placed whole first >>= follow = placed whole (first >>= next) := by
  cases first with
  | error stuck => rfl
  | ok read => exact follows read.1 read.2 rfl

theorem suffix_of_bare_identifier {word : List Char} (within : text <:+ whole)
    (read : bare (Signature.identifier text) = .ok (word, rest)) : rest <:+ whole := by
  obtain ⟨front, identified, -, rfl⟩ := exists_of_bare_identifier read
  exact suffix_of_append (suffix_of_append within)

theorem segments_positionOf {depth : Nat} (within : text <:+ whole) (deep : text.length < depth) :
    segments whole depth (positionOf whole text) =
      placed whole (bare (Signature.segments text)) := by
  induction depth generalizing text with
  | zero => exact absurd deep (Nat.not_lt_zero _)
  | succ depth ih =>
    rw [segments, behind_positionOf within, pure_bind, bare_segments, isPrefixOf_dots_iff]
    cases dot : dot? text with
    | none => rfl
    | some behindDot =>
      obtain ⟨behindDot, shorter⟩ := behindDot
      obtain rfl : text = ['.'] ++ behindDot := eq_cons_of_dot? dot
      have position : positionOf whole (['.'] ++ behindDot) + 1 = positionOf whole behindDot :=
        positionOf_append within
      have inside := suffix_of_append within
      rw [Option.isSome_some, if_pos rfl, position, identifier_positionOf inside]
      apply placed_bind
      intro word behindWord first
      have smaller : behindWord.length < behindDot.length := promise_of_bare first
      dsimp only
      rw [ih (suffix_of_bare_identifier inside first) (by omega)]
      apply placed_bind
      intro others behindOthers _
      rfl

theorem name_positionOf {depth : Nat} (within : text <:+ whole) (deep : text.length ≤ depth) :
    name whole depth (positionOf whole text) = placed whole (bare (Signature.name text)) := by
  rw [name, identifier_positionOf within, bare_name]
  apply placed_bind
  intro word behindWord first
  have smaller : behindWord.length < text.length := promise_of_bare first
  dsimp only
  rw [segments_positionOf (suffix_of_bare_identifier within first) (by omega)]
  apply placed_bind
  intro others behindOthers _
  rfl

/-- A reading that leaves no white space in front of what is left. -/
def trimmed : Except Stuck (α × List Char) → Except Stuck (α × List Char) :=
  Except.map fun (result, rest) => (result, trimFront rest)

theorem trimmed_bind {β : Type} (first : Except Stuck (α × List Char))
    (next : α × List Char → Except Stuck (β × List Char)) :
    trimmed (first >>= next) = first >>= fun read => trimmed (next read) := by
  cases first <;> rfl

theorem suffix_of_behindFront? {expected after : List Char} (within : text <:+ whole)
    (found : behindFront? expected (trimFront text) = some after) : after <:+ whole := by
  have trimmed := trimFront_suffix within
  rw [Text.behindFront?_eq_some_iff.1 found] at trimmed
  exact suffix_of_append trimmed

theorem bare_arrays_trimFront (element : Signature) (text : List Char) :
    bare (Signature.arrays element (trimFront text)) = bare (Signature.arrays element text) := by
  rw [bare_arrays, bare_arrays, trimFront_trimFront]

theorem bare_name_trimFront (text : List Char) :
    bare (Signature.name (trimFront text)) = bare (Signature.name text) := by
  rw [bare_name, bare_name, bare_identifier, bare_identifier, trimFront_trimFront]

theorem behindWord?_trimFront (word text : List Char) :
    behindWord? word (trimFront text) = behindWord? word text := by
  rw [behindWord?, behindWord?, trimFront_trimFront]

theorem bareFurther_trimFront (arg : Signature) (text : List Char) :
    bareFurther arg (trimFront text) = bareFurther arg text := by
  rw [bareFurther, bareFurther, trimFront_trimFront]

theorem arrays_positionOf {depth : Nat} {element : Signature} (within : text <:+ whole)
    (deep : text.length < depth) :
    arrays whole depth element (positionOf whole text) =
      placed whole (trimmed (bare (Signature.arrays element text))) := by
  induction depth generalizing text element with
  | zero => exact absurd deep (Nat.not_lt_zero _)
  | succ depth ih =>
    rw [arrays, token_positionOf within, bare_arrays]
    cases opens : behindFront? ['['] (trimFront text) with
    | some behindOpen =>
      have inside := suffix_of_behindFront? within opens
      have := length_lt_of_behindFront? opens
      simp only [pure_bind, if_true]
      rw [token_positionOf inside]
      cases closes : behindFront? [']'] (trimFront behindOpen) with
      | none => rfl
      | some behindClose =>
        have := length_lt_of_behindFront? closes
        exact ih (suffix_of_behindFront? inside closes) (by omega)
    | none =>
      simp only [pure_bind, Bool.false_eq_true, if_false]
      rw [token_positionOf (trimFront_suffix within), trimFront_trimFront]
      cases dots : behindFront? ['.', '.', '.'] (trimFront text) with
      | none =>
        change _ = placed whole (.ok (element, trimFront (trimFront text)))
        rw [trimFront_trimFront]
        rfl
      | some behindDots =>
        have := length_lt_of_behindFront? dots
        exact ih (suffix_of_behindFront? within dots) (by omega)

theorem suffix_of_bare_name {head : String} (within : text <:+ whole)
    (read : bare (Signature.name text) = .ok (head, rest)) : rest <:+ whole := by
  obtain ⟨phrase, -, rfl⟩ := exists_of_bare_name read
  exact suffix_of_append within

theorem suffix_of_bare_arguments {args : List Signature} (within : text <:+ whole)
    (read : bare (Signature.arguments text) = .ok (args, rest)) : rest <:+ whole := by
  obtain ⟨phrase, -, -, rfl⟩ := beginsWithArguments_of_bare (derivesBelow _) read
  exact suffix_of_append within

theorem suffix_of_behindWord? {word after : List Char} (within : text <:+ whole)
    (found : behindWord? word text = some after) : after <:+ whole :=
  suffix_of_behindFront? within (endsWord_of_behindWord? found).1

theorem exists_of_trimmed_type {signature : Signature}
    (reads : trimmed (bare (Signature.type text)) = .ok (signature, rest)) :
    ∃ left, bare (Signature.type text) = .ok (signature, left) ∧ rest = trimFront left := by
  obtain ⟨⟨_, left⟩, read, same⟩ := Outcome.map_eq_ok_iff.1 reads
  cases same
  exact ⟨left, read, rfl⟩

theorem suffix_of_trimmed_type {signature : Signature} (within : text <:+ whole)
    (reads : trimmed (bare (Signature.type text)) = .ok (signature, rest)) : rest <:+ whole := by
  obtain ⟨left, read, rfl⟩ := exists_of_trimmed_type reads
  obtain ⟨phrase, back, -, -, split⟩ := beginsWith_of_bare_type (derivesBelow _) read
  rw [split] at within
  exact trimFront_suffix (suffix_of_append (suffix_of_append within))

theorem length_lt_of_trimmed_type {signature : Signature}
    (reads : trimmed (bare (Signature.type text)) = .ok (signature, rest)) :
    rest.length < text.length := by
  obtain ⟨left, read, rfl⟩ := exists_of_trimmed_type reads
  exact Nat.lt_of_le_of_lt (Text.length_trimFront_le left) (promise_of_bare read)

mutual

/-- A type takes two nested calls for a character, as its arguments are types themselves. -/
theorem type_positionOf : ∀ {depth : Nat} {text : List Char}, text <:+ whole →
    2 * text.length < depth →
      type whole depth (positionOf whole text) = placed whole (trimmed (bare (Signature.type text)))
  | 0, _, _, deep => absurd deep (Nat.not_lt_zero _)
  | depth + 1, text, within, deep => by
    rw [type, token_positionOf within, bare_type]
    cases mark : behindFront? ['?'] (trimFront text) with
    | some behindMark =>
      have inside := suffix_of_behindFront? within mark
      have := length_lt_of_behindFront? mark
      simp only [pure_bind, if_true]
      rw [keyword_positionOf inside, bareWildcard]
      cases below : behindWord? ['e', 'x', 't', 'e', 'n', 'd', 's'] behindMark with
      | some behindWord =>
        have := length_lt_of_behindWord? below
        simp only [pure_bind, if_true]
        rw [type_positionOf (suffix_of_behindWord? inside below) (by omega)]
        cases bare (Signature.type behindWord) <;> rfl
      | none =>
        simp only [pure_bind, Bool.false_eq_true, if_false]
        rw [keyword_positionOf (trimFront_suffix inside), behindWord?_trimFront]
        cases above : behindWord? ['s', 'u', 'p', 'e', 'r'] behindMark with
        | some behindWord =>
          have := length_lt_of_behindWord? above
          simp only [pure_bind, if_true]
          rw [type_positionOf (suffix_of_behindWord? inside above) (by omega)]
          cases bare (Signature.type behindWord) <;> rfl
        | none =>
          simp only [pure_bind, Bool.false_eq_true, if_false]
          rw [trimFront_trimFront]
          rfl
    | none =>
      have := Text.length_trimFront_le text
      simp only [pure_bind, Bool.false_eq_true, if_false]
      rw [name_positionOf (trimFront_suffix within) (by omega), bare_name_trimFront, bareBase,
        trimmed_bind]
      apply placed_bind
      intro head behindName named
      have inside := suffix_of_bare_name within named
      have : behindName.length < text.length := promise_of_bare named
      dsimp only
      rw [token_positionOf inside]
      cases opens : behindFront? ['<'] (trimFront behindName) with
      | some behindOpen =>
        have := length_lt_of_behindFront? opens
        have inside := suffix_of_behindFront? inside opens
        simp only [pure_bind, if_true]
        rw [arguments_positionOf inside (by omega), trimmed_bind]
        apply placed_bind
        intro args behindClose read
        have : behindClose.length < behindOpen.length := promise_of_bare read
        exact arrays_positionOf (suffix_of_bare_arguments inside read) (by omega)
      | none =>
        have := Text.length_trimFront_le behindName
        simp only [pure_bind, Bool.false_eq_true, if_false]
        rw [arrays_positionOf (trimFront_suffix inside) (by omega), bare_arrays_trimFront]

theorem arguments_positionOf : ∀ {depth : Nat} {text : List Char}, text <:+ whole →
    2 * text.length + 1 < depth →
      arguments whole depth (positionOf whole text) =
        placed whole (bare (Signature.arguments text))
  | 0, _, _, deep => absurd deep (Nat.not_lt_zero _)
  | depth + 1, text, within, deep => by
    -- the white space behind an argument makes no difference to what follows it
    have further : bare (Signature.arguments text) =
        trimmed (bare (Signature.type text)) >>= fun (arg, left) => bareFurther arg left := by
      rw [bare_arguments]
      cases bare (Signature.type text) with
      | error stuck => rfl
      | ok read => exact (bareFurther_trimFront read.1 read.2).symm
    rw [arguments, type_positionOf within (by omega), further]
    apply placed_bind
    intro arg left reads
    have inside := suffix_of_trimmed_type within reads
    have := length_lt_of_trimmed_type reads
    dsimp only
    rw [token_positionOf inside, bareFurther]
    cases comma : behindFront? [','] (trimFront left) with
    | some behindComma =>
      have := length_lt_of_behindFront? comma
      simp only [pure_bind, if_true]
      rw [arguments_positionOf (suffix_of_behindFront? inside comma) (by omega)]
      cases bare (Signature.arguments behindComma) <;> rfl
    | none =>
      simp only [pure_bind, Bool.false_eq_true, if_false]
      rw [token_positionOf (trimFront_suffix inside), trimFront_trimFront]
      cases behindFront? ['>'] (trimFront left) <;> rfl

end

theorem positionOf_lt_iff (within : text <:+ whole) :
    positionOf whole text < byteLength whole ↔ text ≠ [] := by
  obtain ⟨front, rfl⟩ := within
  rw [positionOf_eq rfl, byteLength_append]
  cases text with
  | nil => simp [byteLength]
  | cons c rest =>
    have := c.utf8Size_pos
    simp only [byteLength, ne_eq, reduceCtorEq, not_false_eq_true, iff_true]
    omega

/-- Reading at positions ends as reading the text does. -/
theorem signature_eq {depth : Nat} (deep : 2 * whole.length < depth) :
    signature whole depth =
      match ofChars whole with
      | .ok signature => pure signature
      | .error stuck => stuckAt stuck.expected (positionOf whole stuck.unread) := by
  have begins := type_positionOf (List.suffix_refl whole) deep
  rw [positionOf_whole] at begins
  rw [signature, begins, ofChars]
  cases reads : Signature.type whole with
  | error stuck => rfl
  | ok read =>
    obtain ⟨signature, rest, _⟩ := read
    have inside : trimFront rest <:+ whole := by
      apply suffix_of_trimmed_type (List.suffix_refl whole)
      rw [reads]
      rfl
    change (skipBlanks whole (positionOf whole (trimFront rest)) >>= _) = _
    rw [skipBlanks_positionOf inside, pure_bind, trimFront_trimFront]
    dsimp only
    cases left : trimFront rest with
    | nil =>
      rw [left] at inside
      rw [if_neg (fun before => (positionOf_lt_iff inside).1 before rfl)]
    | cons c unread =>
      rw [left] at inside
      rw [if_pos ((positionOf_lt_iff inside).2 (List.cons_ne_nil c unread))]

end Positions

/-- Reading at positions ends, no slice fails, and the outcome is that of reading the text. -/
theorem run_signature {text : String} {depth : Nat} (deep : 2 * text.length < depth) :
    (signature text.toList depth).run = some ((ofText text).mapError .stuck) := by
  rw [← String.length_toList] at deep
  rw [signature_eq deep, ofText]
  cases ofChars text.toList <;> rfl

/-- A slice fails exactly at the positions that are not valid in the text. -/
theorem behind_eq_throw_iff {text : String} {position : Nat} :
    behind text.toList position = throw (.badSlice position) ↔
      ¬ (⟨position⟩ : String.Pos.Raw).IsValid text := by
  rw [← Text.isSome_cutAt?_iff, behind]
  cases cutAt? text.toList position with
  | none => simp
  | some cut =>
    simp only [Option.isSome_some, not_true_eq_false, iff_false]
    rintro ⟨⟩

/-- A slice between two positions fails unless they are valid and in their order. -/
theorem exists_between_eq_throw_iff {text : String} {start stop : Nat} :
    (∃ position, between text.toList start stop = throw (.badSlice position)) ↔
      ¬ (start ≤ stop ∧ (⟨start⟩ : String.Pos.Raw).IsValid text ∧
        (⟨stop⟩ : String.Pos.Raw).IsValid text) := by
  rw [← Text.isSome_cutAt?_iff, ← Text.isSome_cutAt?_iff, between]
  cases cut : cutAt? text.toList stop with
  | none =>
    constructor
    · rintro - ⟨-, -, ⟨⟩⟩
    · rintro -
      exact ⟨stop, rfl⟩
  | some parts =>
    obtain ⟨front, rest⟩ := parts
    obtain ⟨split, rfl⟩ := Text.append_of_cutAt? cut
    rw [split, Option.isSome_some, and_iff_left rfl, ← Text.isSome_cutAt?_front_iff]
    dsimp only
    cases cutAt? front start with
    | none => exact iff_of_true ⟨start, rfl⟩ Bool.false_ne_true
    | some cut =>
      simp only [Option.isSome_some, not_true_eq_false, iff_false]
      rintro ⟨_, ⟨⟩⟩

end Sliced

end Signature

end TypeBridge
