import Mathlib
import TypeBridge.Proofs.SlicedReading

/-!
# What is read before an error begins a signature

A reader that is stuck has read the beginning of a text that it would have accepted.  For each
reader there is a derivation that begins with what was read, and it continues a word in front of a
bound only where the text itself does.  So the offset of an error is a valid position, and the text
in front of it can be completed to a signature.
-/

namespace TypeBridge.Signature

open Text (behindFront? byteLength trimFront utf8ByteSize_ofList)
open Outcome (bind_eq_error_iff)

variable {text unread chars : List Char} {stuck : Stuck}

/-- What is read of a text is the beginning of some characters, and these begin with a character of
an identifier only if the text does. -/
def BeginsLike (text unread chars : List Char) : Prop :=
  ∃ read more, text = read ++ unread ∧ chars = read ++ more ∧ (EndsWord text → EndsWord chars)

namespace BeginsLike

theorem endsWord (begins : BeginsLike text unread chars) (ends : EndsWord text) :
    EndsWord chars := by
  obtain ⟨_, _, _, _, word⟩ := begins
  exact word ends

theorem inFront (front : List Char) (begins : BeginsLike text unread chars) :
    BeginsLike (front ++ text) unread (front ++ chars) := by
  obtain ⟨read, more, rfl, rfl, word⟩ := begins
  refine ⟨front ++ read, more, (List.append_assoc ..).symm, (List.append_assoc ..).symm, ?_⟩
  cases front with
  | nil => exact word
  | cons c front => exact id

theorem andThen (begins : BeginsLike text unread chars) (some : chars ≠ []) (back : List Char) :
    BeginsLike text unread (chars ++ back) := by
  obtain ⟨read, more, split, rfl, word⟩ := begins
  refine ⟨read, more ++ back, split, List.append_assoc .., ?_⟩
  intro ends
  rw [EndsWord, List.head?_append_of_ne_nil _ some]
  exact word ends

/-- What is missing behind white space may be any character that continues no identifier. -/
theorem exists_missing (text : List Char) {c : Char} (apart : isNameChar c = false)
    (more : List Char) :
    ∃ front : Blanks, BeginsLike text (trimFront text) (front.1 ++ c :: more) := by
  obtain ⟨front, split⟩ := exists_blanks text
  refine ⟨front, front.1, c :: more, split, rfl, ?_⟩
  intro _
  obtain ⟨chars, blank⟩ := front
  cases chars with
  | nil => exact apart
  | cons d others => exact not_isNameChar_of_isBlank (blank d List.mem_cons_self)

end BeginsLike

section Names

/-- An identifier to complete a text with. -/
def spareWord : Identifier :=
  ⟨['T'], by decide⟩

/-- White space with a further blank behind it. -/
def Blanks.further (front : Blanks) : Blanks :=
  ⟨front.1 ++ [' '], by
    intro c member
    rcases List.mem_append.1 member with inside | last
    · exact front.2 c inside
    · rw [List.mem_singleton.1 last]
      rfl⟩

theorem unread_of_identifier_error (failed : bare (identifier text) = .error stuck) :
    stuck.unread = trimFront text := by
  rw [bare_identifier] at failed
  split at failed
  · next nothing =>
    cases failed
    exact nothing.symm
  · next c others visible =>
    split at failed
    · cases failed
    · cases failed
      exact visible.symm

/-- The identifier that is missing is parted from a word in front of it by a further blank. -/
theorem exists_of_identifier_error (failed : bare (identifier text) = .error stuck) :
    ∃ front : Blanks, BeginsLike text stuck.unread (front.1 ++ spareWord.1) := by
  obtain ⟨front, begins⟩ :=
    BeginsLike.exists_missing text (by decide : isNameChar ' ' = false) spareWord.1
  refine ⟨front.further, ?_⟩
  rw [unread_of_identifier_error failed]
  simpa [Blanks.further] using begins

theorem exists_of_segments_error {text : List Char}
    (failed : bare (segments text) = .error stuck) :
    ∃ segs, BeginsLike text stuck.unread (segmentChars segs) := by
  rw [bare_segments] at failed
  cases single : dot? text with
  | none =>
    rw [single] at failed
    cases failed
  | some dot =>
    obtain ⟨behindDot, shorter⟩ := dot
    obtain rfl : text = '.' :: behindDot := eq_cons_of_dot? single
    rw [single] at failed
    rcases bind_eq_error_iff.1 failed with first | ⟨⟨segment, behind⟩, first, later⟩
    · obtain ⟨front, begins⟩ := exists_of_identifier_error first
      refine ⟨[(front, spareWord)], ?_⟩
      simpa [segmentChars] using begins.inFront ['.']
    · have smaller : behind.length < behindDot.length := promise_of_bare first
      obtain ⟨gap, word, -, rfl⟩ := exists_of_bare_identifier first
      rcases bind_eq_error_iff.1 later with further | ⟨_, _, done⟩
      · obtain ⟨segs, begins⟩ := exists_of_segments_error further
        refine ⟨(gap, word) :: segs, ?_⟩
        simpa [segmentChars] using begins.inFront ('.' :: (gap.1 ++ word.1))
      · cases done
termination_by text.length

theorem exists_of_name_error (failed : bare (name text) = .error stuck) :
    ∃ phrase : NamePhrase, BeginsLike text stuck.unread phrase.chars := by
  rw [bare_name] at failed
  rcases bind_eq_error_iff.1 failed with first | ⟨⟨segment, behind⟩, first, later⟩
  · obtain ⟨front, begins⟩ := exists_of_identifier_error first
    refine ⟨⟨front, spareWord, []⟩, ?_⟩
    simpa [NamePhrase.chars, segmentChars] using begins
  · obtain ⟨front, word, -, split⟩ := exists_of_bare_identifier first
    rcases bind_eq_error_iff.1 later with further | ⟨_, _, done⟩
    · obtain ⟨segs, begins⟩ := exists_of_segments_error further
      refine ⟨⟨front, word, segs⟩, ?_⟩
      rw [split]
      simpa [NamePhrase.chars] using begins.inFront (front.1 ++ word.1)
    · cases done

end Names

section Types

theorem exists_of_arrays_error {text : List Char} {element : Signature}
    (failed : bare (arrays element text) = .error stuck) :
    ∃ marks, BeginsLike text stuck.unread (markChars marks) := by
  rw [bare_arrays] at failed
  split at failed
  · next behindOpen opens =>
    obtain ⟨outside, rfl⟩ := exists_of_behindFront? opens
    split at failed
    · cases failed
      obtain ⟨inside, begins⟩ :=
        BeginsLike.exists_missing behindOpen (by decide : isNameChar ']' = false) []
      refine ⟨[.brackets outside inside], ?_⟩
      simpa [markChars, Mark.chars] using begins.inFront (outside.1 ++ ['['])
    · next behindClose closes =>
      have := length_lt_of_behindFront? closes
      obtain ⟨inside, rfl⟩ := exists_of_behindFront? closes
      obtain ⟨marks, begins⟩ := exists_of_arrays_error failed
      refine ⟨.brackets outside inside :: marks, ?_⟩
      simpa [markChars, Mark.chars] using begins.inFront (Mark.brackets outside inside).chars
  · split at failed
    · cases failed
    · next behindDots dots =>
      have := length_lt_of_behindFront? dots
      obtain ⟨outside, rfl⟩ := exists_of_behindFront? dots
      obtain ⟨marks, begins⟩ := exists_of_arrays_error failed
      refine ⟨.dots outside :: marks, ?_⟩
      simpa [markChars, Mark.chars] using begins.inFront (Mark.dots outside).chars
termination_by text.length

/-- A derivation of a type begins with what is read of a text. -/
def BeginsType (text unread : List Char) : Prop :=
  ∃ phrase : TypePhrase, phrase.PartsWords ∧ BeginsLike text unread phrase.chars

def BeginsArguments (text unread : List Char) : Prop :=
  ∃ phrase : ArgumentPhrase, phrase.PartsWords ∧ BeginsLike text unread phrase.chars

/-- What is read of shorter texts before an error begins a derivation. -/
def ViableBelow (size : Nat) : Prop :=
  ∀ text : List Char, text.length < size →
    (∀ stuck, bare (type text) = .error stuck → BeginsType text stuck.unread) ∧
    ∀ stuck, bare (arguments text) = .error stuck → BeginsArguments text stuck.unread

theorem beginsType_bounded {front : Blanks} {behindMark behindWord : List Char} (word : BoundWord)
    (split : text = front.1 ++ '?' :: behindMark)
    (found : behindWord? word.chars behindMark = some behindWord)
    (further : BeginsType behindWord unread) : BeginsType text unread := by
  obtain ⟨stands, ends⟩ := endsWord_of_behindWord? found
  obtain ⟨gap, splitMark⟩ := exists_of_behindFront? stands
  obtain ⟨phrase, parts, begins⟩ := further
  refine ⟨.bounded front gap word phrase, ⟨begins.endsWord ends, parts⟩, ?_⟩
  rw [split, splitMark]
  simpa [TypePhrase.chars] using begins.inFront (front.1 ++ '?' :: (gap.1 ++ word.chars))

theorem beginsType_of_bareWildcard_error {front : Blanks} {behindMark : List Char}
    (viable : ViableBelow behindMark.length) (split : text = front.1 ++ '?' :: behindMark)
    (failed : bareWildcard behindMark = .error stuck) : BeginsType text stuck.unread := by
  unfold bareWildcard at failed
  split at failed
  · next behindWord found =>
    rcases bind_eq_error_iff.1 failed with further | ⟨_, _, done⟩
    · apply beginsType_bounded .below split found
      exact (viable behindWord (length_lt_of_behindWord? found)).1 stuck further
    · cases done
  · split at failed
    · next behindWord found =>
      rcases bind_eq_error_iff.1 failed with further | ⟨_, _, done⟩
      · apply beginsType_bounded .above split found
        exact (viable behindWord (length_lt_of_behindWord? found)).1 stuck further
      · cases done
    · cases failed

theorem beginsType_of_bareBase_error (viable : ViableBelow text.length)
    (failed : bareBase text = .error stuck) : BeginsType text stuck.unread := by
  rcases bind_eq_error_iff.1 failed with unnamed | ⟨⟨head, behindName⟩, named, later⟩
  · obtain ⟨name, begins⟩ := exists_of_name_error unnamed
    refine ⟨.plain name [], trivial, ?_⟩
    simpa [TypePhrase.chars, markChars] using begins
  · have behind : behindName.length < text.length := promise_of_bare named
    obtain ⟨name, -, rfl⟩ := exists_of_bare_name named
    dsimp only at later
    split at later
    · obtain ⟨marks, begins⟩ := exists_of_arrays_error later
      exact ⟨.plain name marks, trivial, begins.inFront name.chars⟩
    · next behindOpen found =>
      have shorter := (length_lt_of_behindFront? found).trans behind
      obtain ⟨opening, rfl⟩ := exists_of_behindFront? found
      rcases bind_eq_error_iff.1 later with inside | ⟨⟨args, behindClose⟩, inside, marked⟩
      · obtain ⟨args, parts, begins⟩ := (viable behindOpen shorter).2 stuck inside
        refine ⟨.applied name opening args [], parts, ?_⟩
        simpa [TypePhrase.chars, markChars] using
          begins.inFront (name.chars ++ (opening.1 ++ ['<']))
      · obtain ⟨args, parts, -, rfl⟩ := beginsWithArguments_of_bare (derivesBelow _) inside
        obtain ⟨marks, begins⟩ := exists_of_arrays_error marked
        refine ⟨.applied name opening args marks, parts, ?_⟩
        simpa [TypePhrase.chars] using
          begins.inFront (name.chars ++ (opening.1 ++ '<' :: args.chars))

theorem beginsType_of_error (viable : ViableBelow text.length)
    (failed : bare (type text) = .error stuck) : BeginsType text stuck.unread := by
  rw [bare_type] at failed
  split at failed
  · next behindMark found =>
    obtain ⟨front, split⟩ := exists_of_behindFront? found
    apply beginsType_of_bareWildcard_error _ split failed
    intro other shorter
    exact viable other (shorter.trans (length_lt_of_behindFront? found))
  · exact beginsType_of_bareBase_error viable failed

theorem beginsArguments_of_error (viable : ViableBelow text.length)
    (failed : bare (arguments text) = .error stuck) : BeginsArguments text stuck.unread := by
  rw [bare_arguments] at failed
  rcases bind_eq_error_iff.1 failed with first | ⟨⟨arg, behindArg⟩, first, later⟩
  · obtain ⟨phrase, parts, begins⟩ := beginsType_of_error viable first
    refine ⟨.last phrase ⟨[], by simp⟩, parts, ?_⟩
    simpa [ArgumentPhrase.chars] using begins.andThen phrase.chars_ne_nil ['>']
  · have behind : behindArg.length < text.length := promise_of_bare first
    obtain ⟨phrase, back, parts, -, split⟩ := beginsWith_of_bare_type (derivesBelow _) first
    rw [split]
    dsimp only at later
    unfold bareFurther at later
    split at later
    · next behindComma found =>
      rcases bind_eq_error_iff.1 later with others | ⟨_, _, done⟩
      · have shorter := (length_lt_of_behindFront? found).trans behind
        obtain ⟨args, partsOthers, begins⟩ := (viable behindComma shorter).2 stuck others
        rw [← trimFront_blanks_append back] at found
        obtain ⟨comma, splitComma⟩ := exists_of_behindFront? found
        refine ⟨.further phrase comma args, ⟨parts, partsOthers⟩, ?_⟩
        rw [splitComma]
        simpa [ArgumentPhrase.chars] using begins.inFront (phrase.chars ++ (comma.1 ++ [',']))
      · cases done
    · split at later
      · cases later
      · cases later
        obtain ⟨closing, begins⟩ :=
          BeginsLike.exists_missing (back.1 ++ behindArg) (by decide : isNameChar '>' = false) []
        rw [trimFront_blanks_append] at begins
        exact ⟨.last phrase closing, parts, begins.inFront phrase.chars⟩

theorem viableBelow (size : Nat) : ViableBelow size := by
  induction size with
  | zero =>
    intro text impossible
    exact absurd impossible (Nat.not_lt_zero _)
  | succ size ih =>
    intro text short
    have shorter : ViableBelow text.length := by
      intro other less
      exact ih other (by omega)
    constructor
    · intro stuck
      exact beginsType_of_error shorter
    · intro stuck
      exact beginsArguments_of_error shorter

end Types

theorem ofText_of_partsWords {phrase : TypePhrase} (parts : phrase.PartsWords) (back : Blanks) :
    ofText (String.ofList (phrase.chars ++ back.1)) = .ok phrase.signature := by
  obtain ⟨left, read, same⟩ := phrase.exists_bare parts (closes_blanks back)
  rw [ofText_eq_ok_iff, String.toList_ofList]
  refine ⟨left, read, ?_⟩
  rw [same]
  exact List.dropWhile_eq_nil_iff.2 back.2

/-- What is read before an error can be completed to a signature. -/
theorem exists_of_ofChars_error (failed : ofChars text = .error stuck) :
    ∃ front more signature, text = front ++ stuck.unread ∧
      ofText (String.ofList (front ++ more)) = .ok signature := by
  unfold ofChars at failed
  cases reads : type text with
  | error inside =>
    rw [reads] at failed
    cases failed
    have failed : bare (type text) = .error stuck := by rw [reads, bare_error]
    obtain ⟨phrase, parts, front, more, split, same, -⟩ :=
      beginsType_of_error (viableBelow _) failed
    refine ⟨front, more, phrase.signature, split, ?_⟩
    have accepted := ofText_of_partsWords parts ⟨[], by simp⟩
    rwa [List.append_nil, same] at accepted
  | ok read =>
    obtain ⟨signature, rest, shorter⟩ := read
    have read : bare (type text) = .ok (signature, rest) := by rw [reads, bare_ok]
    obtain ⟨phrase, back, parts, -, split⟩ := beginsWith_of_bare_type (derivesBelow _) read
    obtain ⟨gap, blanks⟩ := exists_blanks (back.1 ++ rest)
    rw [trimFront_blanks_append] at blanks
    rw [reads] at failed
    have unread : stuck.unread = trimFront rest := by
      dsimp only at failed
      split at failed
      · cases failed
      · cases failed
        rfl
    -- what stands in front of the unread text is a signature already
    refine ⟨phrase.chars ++ gap.1, [], phrase.signature, ?_, ?_⟩
    · rw [unread, split, blanks, List.append_assoc]
    · rw [List.append_nil]
      exact ofText_of_partsWords parts gap

/-- The text in front of the offset of an error begins a signature. -/
theorem exists_of_ofText_error {text : String} {error : ReadError}
    (failed : ofText text = .error error) :
    ∃ front back more signature, text = front ++ back ∧ front.utf8ByteSize = error.offset ∧
      ofText (front ++ more) = .ok signature := by
  unfold ofText at failed
  cases reads : ofChars text.toList with
  | ok signature =>
    rw [reads] at failed
    cases failed
  | error stuck =>
    rw [reads] at failed
    cases failed
    obtain ⟨front, more, signature, split, accepted⟩ := exists_of_ofChars_error reads
    refine ⟨String.ofList front, String.ofList stuck.unread, String.ofList more, signature,
      ?_, ?_, ?_⟩
    · rw [← String.ofList_append, ← split, String.ofList_toList]
    · exact (utf8ByteSize_ofList front).trans (Sliced.positionOf_eq split).symm
    · rwa [← String.ofList_append]

/-- Reading a text ends: readers that slice it at byte positions find what the readers of the text
find, with calls nested no deeper than twice the length of the text, and never slice it at a position
that is not valid.  The offset of an error is a valid position, and the text in front of it begins a
signature. -/
theorem slices_and_offsets_valid (text : String) :
    (∀ position, Sliced.behind text.toList position = throw (.badSlice position) ↔
      ¬ (⟨position⟩ : String.Pos.Raw).IsValid text) ∧
    (∀ start stop, (∃ position, Sliced.between text.toList start stop =
        throw (.badSlice position)) ↔
      ¬ (start ≤ stop ∧ (⟨start⟩ : String.Pos.Raw).IsValid text ∧
        (⟨stop⟩ : String.Pos.Raw).IsValid text)) ∧
    (∀ depth, 2 * text.length < depth →
      (Sliced.signature text.toList depth).run = some ((ofText text).mapError .stuck)) ∧
    ∀ error, ofText text = .error error →
      (⟨error.offset⟩ : String.Pos.Raw).IsValid text ∧
      ∃ front back more signature, text = front ++ back ∧ front.utf8ByteSize = error.offset ∧
        ofText (front ++ more) = .ok signature := by
  refine ⟨fun _ => Sliced.behind_eq_throw_iff, fun _ _ => Sliced.exists_between_eq_throw_iff,
    fun _ => Sliced.run_signature, ?_⟩
  intro error failed
  obtain ⟨front, back, more, signature, split, size, accepted⟩ := exists_of_ofText_error failed
  refine ⟨?_, front, back, more, signature, split, size, accepted⟩
  rw [String.Pos.Raw.isValid_iff_exists_append]
  exact ⟨front, back, split, congrArg String.Pos.Raw.mk size.symm⟩

/-- The ideographic space is three bytes long, and an argument is missing behind it. -/
theorem missingArgument_offset_valid :
    ofText "List<\u3000" = .error ⟨.typeName, 8⟩ ∧
      (Sliced.signature "List<\u3000".toList 13).run = some (.error (.stuck ⟨.typeName, 8⟩)) ∧
      (⟨8⟩ : String.Pos.Raw).IsValid "List<\u3000" ∧
      ∃ front back more signature, "List<\u3000" = front ++ back ∧ front.utf8ByteSize = 8 ∧
        ofText (front ++ more) = .ok signature := by
  have failed : ofText "List<\u3000" = .error ⟨.typeName, 8⟩ := by cbv
  obtain ⟨-, -, ends, valid⟩ := slices_and_offsets_valid "List<\u3000"
  have run := ends 13 (by decide)
  rw [failed] at run
  exact ⟨failed, run, valid _ failed⟩

end TypeBridge.Signature
