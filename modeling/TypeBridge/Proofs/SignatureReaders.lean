import Mathlib.Data.List.TakeWhile
import TypeBridge.Host.Signature.Reader
import TypeBridge.Proofs.Outcomes

/-!
# Readers of signatures without their proofs of progress

A reader returns a proof that its text became shorter.  Here each reader gets an equation in which
these proofs are forgotten, and from these equations come the laws of the single readers.
-/

namespace TypeBridge.Signature

open Outcome Text

variable {α : Type} {text rest : List Char}

/-- A reading without its proof of progress. -/
def bare {promise : List Char → Prop}
    (reading : Except Stuck (α × { rest : List Char // promise rest })) :
    Except Stuck (α × List Char) :=
  reading.map fun (result, rest) => (result, rest.1)

section

variable {promise : List Char → Prop} {stuck : Stuck} {result : α}
  {reading : Except Stuck (α × { rest : List Char // promise rest })}

@[simp]
theorem bare_error :
    bare (.error stuck : Except Stuck (α × { rest : List Char // promise rest })) =
      .error stuck :=
  rfl

@[simp]
theorem bare_ok {kept : { rest : List Char // promise rest }} :
    bare (.ok (result, kept)) = .ok (result, kept.1) :=
  rfl

theorem bare_eq_ok_iff :
    bare reading = .ok (result, rest) ↔ ∃ kept, reading = .ok (result, ⟨rest, kept⟩) := by
  cases reading with
  | error stuck => simp
  | ok read =>
    obtain ⟨result', rest', kept⟩ := read
    simp only [bare_ok, Except.ok.injEq, Prod.mk.injEq, Subtype.mk.injEq]
    constructor
    · rintro ⟨rfl, rfl⟩
      exact ⟨kept, rfl, rfl⟩
    · rintro ⟨-, rfl, rfl⟩
      exact ⟨rfl, rfl⟩

/-- What is left keeps the promise of the reader. -/
theorem promise_of_bare (read : bare reading = .ok (result, rest)) : promise rest :=
  (bare_eq_ok_iff.1 read).1

end

theorem map_token? {first : Char} {others : List Char} :
    (token? first others text).map (·.1) = behindFront? (first :: others) (trimFront text) := by
  unfold token?
  split
  · next found => rw [found, Option.map_none]
  · next rest found => exact found.symm

/-- The text behind a word that no identifier character follows. -/
def behindWord? (word text : List Char) : Option (List Char) :=
  (behindFront? word (trimFront text)).filter fun rest => !rest.head?.any isNameChar

theorem map_keyword? {first : Char} {others : List Char} :
    (keyword? first others text).map (·.1) = behindWord? (first :: others) text := by
  rw [keyword?, behindWord?, ← map_token?, Option.filter_map]
  rfl

theorem bare_identifier : bare (identifier text) =
    match trimFront text with
    | [] => .error ⟨.typeName, []⟩
    | c :: others =>
      if isNameStart c then .ok (c :: others.takeWhile isNameChar, others.dropWhile isNameChar)
      else .error ⟨.typeName, c :: others⟩ := by
  unfold identifier
  split
  · next found => rw [found, bare_error]
  · next c others found =>
    simp only [found]
    split <;> rfl

theorem bare_segments : bare (segments text) =
    match (dot? text).map (·.1) with
    | none => .ok ([], text)
    | some behindDot => do
      let (segment, behind) ← bare (identifier behindDot)
      let (others, rest) ← bare (segments behind)
      return ('.' :: segment ++ others, rest) := by
  rw [segments]
  cases dot? text with
  | none => rfl
  | some behindDot =>
    obtain ⟨behindDot, _⟩ := behindDot
    dsimp only [Option.map_some]
    cases identifier behindDot with
    | error stuck => rfl
    | ok read =>
      obtain ⟨segment, behind, _⟩ := read
      dsimp only [bare_ok]
      change _ = (bare (segments behind)).bind _
      cases segments behind <;> rfl

theorem bare_name : bare (name text) = do
    let (first, behind) ← bare (identifier text)
    let (others, rest) ← bare (segments behind)
    return (String.ofList (first ++ others), rest) := by
  rw [name]
  cases identifier text with
  | error stuck => rfl
  | ok read =>
    obtain ⟨first, behind, _⟩ := read
    change _ = (bare (segments behind)).bind _
    dsimp only
    cases segments behind <;> rfl

theorem bare_arrays {element : Signature} : bare (arrays element text) =
    match behindFront? ['['] (trimFront text) with
    | some behindOpen =>
      match behindFront? [']'] (trimFront behindOpen) with
      | none => .error ⟨.closingBracket, trimFront behindOpen⟩
      | some behindClose => bare (arrays (.array element) behindClose)
    | none =>
      match behindFront? ['.', '.', '.'] (trimFront text) with
      | none => .ok (element, trimFront text)
      | some behindDots => bare (arrays (.array element) behindDots) := by
  rw [arrays, ← map_token?, ← map_token?]
  cases token? '[' [] text with
  | some behindOpen =>
    obtain ⟨behindOpen, _⟩ := behindOpen
    dsimp only [Option.map_some]
    rw [← map_token?]
    cases token? ']' [] behindOpen with
    | none => rfl
    | some behindClose =>
      obtain ⟨behindClose, _⟩ := behindClose
      dsimp only [Option.map_some]
      cases arrays (.array element) behindClose <;> rfl
  | none =>
    dsimp only [Option.map_none]
    cases token? '.' ['.', '.'] text with
    | none => rfl
    | some behindDots =>
      obtain ⟨behindDots, _⟩ := behindDots
      dsimp only [Option.map_some]
      cases arrays (.array element) behindDots <;> rfl

/-- What is read behind a question mark. -/
def bareWildcard (behindMark : List Char) : Except Stuck (Signature × List Char) :=
  match behindWord? ['e', 'x', 't', 'e', 'n', 'd', 's'] behindMark with
  | some behindWord => do
    let (bound, rest) ← bare (type behindWord)
    return (.anyBelow bound, rest)
  | none =>
    match behindWord? ['s', 'u', 'p', 'e', 'r'] behindMark with
    | some behindWord => do
      let (bound, rest) ← bare (type behindWord)
      return (.anyAbove bound, rest)
    | none => .ok (.anything, behindMark)

/-- What is read where no question mark stands. -/
def bareBase (text : List Char) : Except Stuck (Signature × List Char) := do
  let (head, behindName) ← bare (name text)
  match behindFront? ['<'] (trimFront behindName) with
  | none => bare (arrays (.named head []) behindName)
  | some behindOpen => do
    let (args, behindClose) ← bare (arguments behindOpen)
    bare (arrays (.named head args) behindClose)

theorem bare_type : bare (type text) =
    match behindFront? ['?'] (trimFront text) with
    | some behindMark => bareWildcard behindMark
    | none => bareBase text := by
  rw [type, ← map_token?]
  cases token? '?' [] text with
  | some behindMark =>
    obtain ⟨behindMark, _⟩ := behindMark
    dsimp only [Option.map_some]
    rw [bareWildcard, ← map_keyword?, ← map_keyword?]
    cases keyword? 'e' ['x', 't', 'e', 'n', 'd', 's'] behindMark with
    | some behindWord =>
      obtain ⟨behindWord, _⟩ := behindWord
      dsimp only [Option.map_some]
      cases type behindWord <;> rfl
    | none =>
      dsimp only [Option.map_none]
      cases keyword? 's' ['u', 'p', 'e', 'r'] behindMark with
      | some behindWord =>
        obtain ⟨behindWord, _⟩ := behindWord
        dsimp only [Option.map_some]
        cases type behindWord <;> rfl
      | none => rfl
  | none =>
    dsimp only [Option.map_none]
    rw [bareBase]
    cases name text with
    | error stuck => rfl
    | ok read =>
      obtain ⟨head, behindName, _⟩ := read
      change _ = (match behindFront? ['<'] (trimFront behindName) with | none => _ | some _ => _)
      rw [← map_token?]
      dsimp only
      cases token? '<' [] behindName with
      | none =>
        dsimp only [Option.map_none]
        cases arrays (.named head []) behindName <;> rfl
      | some behindOpen =>
        obtain ⟨behindOpen, _⟩ := behindOpen
        dsimp only [Option.map_some]
        cases arguments behindOpen with
        | error stuck => rfl
        | ok read =>
          obtain ⟨args, behindClose, _⟩ := read
          change _ = bare (arrays (.named head args) behindClose)
          dsimp only
          cases arrays (.named head args) behindClose <;> rfl

/-- What is read behind an argument. -/
def bareFurther (arg : Signature) (behindArg : List Char) :
    Except Stuck (List Signature × List Char) :=
  match behindFront? [','] (trimFront behindArg) with
  | some behindComma => do
    let (others, rest) ← bare (arguments behindComma)
    return (arg :: others, rest)
  | none =>
    match behindFront? ['>'] (trimFront behindArg) with
    | some behindClose => .ok ([arg], behindClose)
    | none => .error ⟨.commaOrClosingAngle, trimFront behindArg⟩

theorem bare_arguments : bare (arguments text) =
    (bare (type text) >>= fun (arg, behindArg) => bareFurther arg behindArg) := by
  rw [arguments]
  cases type text with
  | error stuck => rfl
  | ok read =>
    obtain ⟨arg, behindArg, _⟩ := read
    change _ = bareFurther arg behindArg
    rw [bareFurther, ← map_token?]
    dsimp only
    cases token? ',' [] behindArg with
    | some behindComma =>
      obtain ⟨behindComma, _⟩ := behindComma
      dsimp only [Option.map_some]
      cases arguments behindComma <;> rfl
    | none =>
      dsimp only [Option.map_none]
      rw [← map_token?]
      cases token? '>' [] behindArg <;> rfl

/-- The codes of white space. -/
def blankCodes : List Nat :=
  [0x09, 0x0A, 0x0B, 0x0C, 0x0D, 0x20, 0x85, 0xA0, 0x1680, 0x2000, 0x2001, 0x2002, 0x2003, 0x2004,
    0x2005, 0x2006, 0x2007, 0x2008, 0x2009, 0x200A, 0x2028, 0x2029, 0x202F, 0x205F, 0x3000]

theorem toNat_mem_blankCodes {c : Char} (blank : isBlank c = true) : c.toNat ∈ blankCodes := by
  simp only [isBlank, Bool.or_eq_true, Bool.and_eq_true, decide_eq_true_eq, beq_iff_eq] at blank
  simp only [blankCodes, List.mem_cons, List.not_mem_nil, or_false]
  omega

theorem isNameChar_of_isNameStart {c : Char} (starts : isNameStart c = true) :
    isNameChar c = true := by
  rcases Bool.or_eq_true_iff.1 starts with letter | underscore
  · simp [isNameChar, Letter.isAlphanumeric_of_isAlphabetic letter]
  · simp [isNameChar, underscore]

theorem not_isNameChar_of_mem_blankCodes :
    ∀ code ∈ blankCodes, isNameChar (Char.ofNat code) = false := by
  decide +kernel

/-- White space continues no identifier. -/
theorem not_isNameChar_of_isBlank {c : Char} (blank : isBlank c = true) : isNameChar c = false := by
  have apart := not_isNameChar_of_mem_blankCodes c.toNat (toNat_mem_blankCodes blank)
  rwa [Char.ofNat_toNat] at apart

/-- No letter is white space. -/
theorem not_isBlank_of_isNameStart {c : Char} (starts : isNameStart c = true) :
    isBlank c = false := by
  by_contra blank
  rw [Bool.not_eq_false] at blank
  have part := isNameChar_of_isNameStart starts
  rw [not_isNameChar_of_isBlank blank] at part
  cases part

theorem ne_of_isNameStart {c d : Char} (starts : isNameStart c = true)
    (other : isNameStart d = false) : c ≠ d := by
  rintro rfl
  rw [starts] at other
  cases other

theorem trimFront_cons {c : Char} (visible : isBlank c = false) (rest : List Char) :
    trimFront (c :: rest) = c :: rest := by
  rw [trimFront, List.dropWhile_cons_of_neg (by simp [visible])]

/-- A letter or an underscore, and further characters of identifiers. -/
def isIdentifier : List Char → Bool
  | [] => false
  | c :: rest => isNameStart c && rest.all isNameChar

theorem all_isNameChar {word : List Char} (identifies : isIdentifier word = true) :
    ∀ c ∈ word, isNameChar c = true := by
  cases word with
  | nil => cases identifies
  | cons first rest =>
    obtain ⟨starts, parts⟩ := Bool.and_eq_true_iff.1 identifies
    intro c member
    rcases List.mem_cons.1 member with rfl | later
    · exact isNameChar_of_isNameStart starts
    · exact List.all_eq_true.1 parts c later

theorem dot_notMem_of_isIdentifier {word : List Char} (identifies : isIdentifier word = true) :
    '.' ∉ word := by
  intro member
  exact absurd (all_isNameChar identifies '.' member) (by decide)

/-- A text that no identifier is continued by. -/
def EndsWord (rest : List Char) : Prop :=
  rest.head?.any isNameChar = false

theorem isIdentifier_of_bare {word : List Char}
    (read : bare (identifier text) = .ok (word, rest)) : isIdentifier word = true := by
  rw [bare_identifier] at read
  split at read
  · cases read
  · next c others _ =>
    split at read
    · next starts =>
      cases read
      have parts : (others.takeWhile isNameChar).all isNameChar = true :=
        List.all_eq_true.2 fun c member => List.mem_takeWhile_imp member
      rw [isIdentifier, starts, parts]
      rfl
    · cases read

theorem bare_identifier_append {word : List Char} (identifies : isIdentifier word = true)
    (ends : EndsWord rest) : bare (identifier (word ++ rest)) = .ok (word, rest) := by
  cases word with
  | nil => cases identifies
  | cons c others =>
    obtain ⟨starts, parts⟩ := Bool.and_eq_true_iff.1 identifies
    have visible := trimFront_cons (not_isBlank_of_isNameStart starts) (others ++ rest)
    have stops : rest.takeWhile isNameChar = [] ∧ rest.dropWhile isNameChar = rest := by
      cases rest with
      | nil => exact ⟨rfl, rfl⟩
      | cons d later =>
        have stop : isNameChar d = false := by simpa [EndsWord] using ends
        simp [stop]
    have each : ∀ c ∈ others, isNameChar c = true := List.all_eq_true.1 parts
    rw [bare_identifier, List.cons_append, visible]
    dsimp only
    rw [if_pos starts, List.takeWhile_append_of_pos each, List.dropWhile_append_of_pos each,
      stops.1, stops.2, List.append_nil]

/-- Segments of a name, each behind a dot. -/
def dotted (segments : List (List Char)) : List Char :=
  segments.flatMap ('.' :: ·)

theorem append_dotted (first : List Char) (segments : List (List Char)) :
    first ++ dotted segments = ['.'].intercalate (first :: segments) := by
  induction segments generalizing first with
  | nil => simp [dotted]
  | cons second rest ih =>
    rw [List.intercalate_cons_cons, ← ih second]
    simp [dotted]

/-- A text that no name is continued by. -/
structure EndsName (rest : List Char) : Prop where
  word : EndsWord rest
  dotless : dot? rest = none

theorem EndsName.word_dotted (ends : EndsName rest) (segments : List (List Char)) :
    EndsWord (dotted segments ++ rest) := by
  cases segments with
  | nil => exact ends.word
  | cons segment others => exact (by decide : isNameChar '.' = false)

theorem dot?_cons {c : Char} (apart : c ≠ '.') (rest : List Char) :
    (dot? ('.' :: c :: rest)).map (·.1) = some (c :: rest) := by
  have single : ∀ further, c :: rest = '.' :: '.' :: further → False :=
    fun _ same => apart (List.cons.inj same).1
  rw [dot?.eq_2 _ single]
  rfl

theorem bare_segments_append {segs : List (List Char)}
    (identify : ∀ segment ∈ segs, isIdentifier segment = true) (ends : EndsName rest) :
    bare (segments (dotted segs ++ rest)) = .ok (dotted segs, rest) := by
  induction segs with
  | nil =>
    change bare (segments rest) = .ok ([], rest)
    rw [bare_segments, ends.dotless]
    rfl
  | cons segment others ih =>
    have identifies : isIdentifier segment = true := identify segment List.mem_cons_self
    have further := ih fun other listed => identify other (List.mem_cons_of_mem _ listed)
    have chars : dotted (segment :: others) ++ rest =
        '.' :: (segment ++ (dotted others ++ rest)) := by
      simp [dotted]
    have dot : (dot? ('.' :: (segment ++ (dotted others ++ rest)))).map (·.1) =
        some (segment ++ (dotted others ++ rest)) := by
      cases segment with
      | nil => cases identifies
      | cons c part =>
        have starts := (Bool.and_eq_true_iff.1 identifies).1
        exact dot?_cons (ne_of_isNameStart starts (by decide)) _
    rw [bare_segments, chars, dot]
    dsimp only
    rw [bare_identifier_append identifies (ends.word_dotted others)]
    change (bare (segments (dotted others ++ rest)) >>= _) = _
    rw [further]
    simp [bind, Except.bind, pure, Except.pure, dotted]

theorem exists_of_bare_segments {chars : List Char}
    (read : bare (segments text) = .ok (chars, rest)) :
    ∃ segs : List (List Char), (∀ segment ∈ segs, isIdentifier segment = true) ∧
      chars = dotted segs := by
  induction size : text.length using Nat.strong_induction_on generalizing text chars with
  | _ size ih =>
    rw [bare_segments] at read
    split at read
    · cases read
      exact ⟨[], by simp, rfl⟩
    · next behindDot found =>
      obtain ⟨⟨segment, behind⟩, first, read⟩ := bind_eq_ok_iff.1 read
      obtain ⟨⟨others, last⟩, further, read⟩ := bind_eq_ok_iff.1 read
      cases read
      obtain ⟨dot, -, same⟩ := Option.map_eq_some_iff.1 found
      have shorter : behind.length < text.length :=
        Nat.lt_trans (promise_of_bare first) (same ▸ dot.2)
      obtain ⟨segs, identify, rfl⟩ := ih behind.length (size ▸ shorter) further rfl
      refine ⟨segment :: segs, ?_, rfl⟩
      rintro other (_ | ⟨_, listed⟩)
      · exact isIdentifier_of_bare first
      · exact identify other listed

/-- Identifiers parted by dots. -/
def isQualified (name : String) : Bool :=
  (name.toList.splitOn '.').all isIdentifier

theorem isQualified_iff {chars : List Char} :
    isQualified (String.ofList chars) = true ↔
      ∃ first segs, isIdentifier first = true ∧ (∀ segment ∈ segs, isIdentifier segment = true) ∧
        chars = first ++ dotted segs := by
  rw [isQualified, String.toList_ofList, List.all_eq_true]
  constructor
  · intro identify
    have joined : ['.'].intercalate (chars.splitOn '.') = chars := List.intercalate_splitOn '.'
    cases split : chars.splitOn '.' with
    | nil => exact absurd split (List.splitOn_ne_nil _ _)
    | cons first segs =>
      rw [split] at identify joined
      refine ⟨first, segs, identify first List.mem_cons_self,
        fun segment listed => identify segment (List.mem_cons_of_mem _ listed), ?_⟩
      rw [append_dotted, joined]
  · rintro ⟨first, segs, starts, identify, rfl⟩
    have each : ∀ segment ∈ first :: segs, isIdentifier segment = true := by
      rintro segment (_ | ⟨_, listed⟩)
      · exact starts
      · exact identify segment listed
    have split : (first ++ dotted segs).splitOn '.' = first :: segs := by
      rw [append_dotted]
      exact List.splitOn_intercalate '.'
        (fun segment listed => dot_notMem_of_isIdentifier (each segment listed)) (by simp)
    rw [split]
    exact each

theorem bare_name_append {head : String} (qualifies : isQualified head = true)
    (ends : EndsName rest) : bare (name (head.toList ++ rest)) = .ok (head, rest) := by
  rw [← String.ofList_toList (s := head)] at qualifies
  obtain ⟨first, segs, starts, identify, chars⟩ := isQualified_iff.1 qualifies
  rw [bare_name, chars, List.append_assoc,
    bare_identifier_append starts (ends.word_dotted segs)]
  change (bare (segments (dotted segs ++ rest)) >>= _) = _
  rw [bare_segments_append identify ends]
  change Except.ok (String.ofList (first ++ dotted segs), rest) = _
  rw [← chars, String.ofList_toList]

theorem isQualified_of_bare {head : String} (read : bare (name text) = .ok (head, rest)) :
    isQualified head = true := by
  rw [bare_name] at read
  obtain ⟨⟨first, behind⟩, starts, read⟩ := bind_eq_ok_iff.1 read
  obtain ⟨⟨others, last⟩, further, read⟩ := bind_eq_ok_iff.1 read
  cases read
  obtain ⟨segs, identify, rfl⟩ := exists_of_bare_segments further
  exact isQualified_iff.2 ⟨first, segs, isIdentifier_of_bare starts, identify, rfl⟩

end TypeBridge.Signature
