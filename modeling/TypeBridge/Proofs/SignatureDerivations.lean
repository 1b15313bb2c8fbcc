import TypeBridge.Proofs.SignatureGrammar

/-!
# Reading signatures is deriving them

What the readers read is derived in the grammar, and what is derived is read, up to the white space
behind it.
-/

namespace TypeBridge.Signature

open Outcome Text

variable {text rest : List Char}

theorem trimFront_blanks_append (front : Blanks) (rest : List Char) :
    trimFront (front.1 ++ rest) = trimFront rest := by
  rw [trimFront, List.dropWhile_append_of_pos front.2]
  rfl

theorem trimFront_trimFront (text : List Char) : trimFront (trimFront text) = trimFront text := by
  obtain ⟨front, split⟩ := exists_blanks text
  rw [← trimFront_blanks_append front, ← split]

theorem exists_of_behindFront? {token behind : List Char}
    (found : behindFront? token (trimFront text) = some behind) :
    ∃ front : Blanks, text = front.1 ++ (token ++ behind) := by
  obtain ⟨front, split⟩ := exists_blanks text
  rw [behindFront?_eq_some_iff.1 found] at split
  exact ⟨front, split⟩

theorem behindFront?_blanks (front : Blanks) {c : Char} (visible : isBlank c = false)
    (others more : List Char) :
    behindFront? (c :: others) (trimFront (front.1 ++ c :: (others ++ more))) = some more := by
  rw [trimFront_blanks front visible]
  exact behindFront?_eq_some_iff.2 rfl

theorem behindFront?_of_ne {c d : Char} (apart : c ≠ d) (others more : List Char) :
    behindFront? (c :: others) (d :: more) = none := by
  rw [behindFront?, if_neg apart]

theorem behindFront?_of_closes {c : Char} (closes : Closes rest) (others : List Char)
    (apart : c ≠ ',' ∧ c ≠ '>') : behindFront? (c :: others) (trimFront rest) = none := by
  rw [Closes] at closes
  generalize trimFront rest = behind at closes
  cases closes with
  | nothing => rfl
  | comma more => exact behindFront?_of_ne apart.1 others more
  | closing more => exact behindFront?_of_ne apart.2 others more

section Sound

theorem exists_of_bare_identifier {word : List Char}
    (read : bare (identifier text) = .ok (word, rest)) :
    ∃ (front : Blanks) (identified : Identifier), identified.1 = word ∧
      text = front.1 ++ (identified.1 ++ rest) := by
  have identifies := isIdentifier_of_bare read
  obtain ⟨front, split⟩ := exists_blanks text
  refine ⟨front, ⟨word, identifies⟩, rfl, ?_⟩
  rw [bare_identifier] at read
  split at read
  · cases read
  · next c others found =>
    split at read
    · cases read
      rw [split, found, List.cons_append, List.takeWhile_append_dropWhile]
    · cases read

theorem eq_cons_of_dot? {behind : Rest text} (found : dot? text = some behind) :
    text = '.' :: behind.1 := by
  unfold dot? at found
  split at found
  · cases found
  · cases found
    rfl
  · cases found

theorem exists_of_bare_segments_eq {chars : List Char}
    (read : bare (segments text) = .ok (chars, rest)) :
    ∃ segs : List (Blanks × Identifier), chars = dotted (segs.map (·.2.1)) ∧
      text = segmentChars segs ++ rest := by
  induction size : text.length using Nat.strong_induction_on generalizing text chars with
  | _ size ih =>
    rw [bare_segments] at read
    split at read
    · cases read
      exact ⟨[], rfl, rfl⟩
    · next behindDot found =>
      obtain ⟨⟨segment, behind⟩, first, read⟩ := bind_eq_ok_iff.1 read
      obtain ⟨⟨others, last⟩, further, read⟩ := bind_eq_ok_iff.1 read
      cases read
      obtain ⟨dot, single, rfl⟩ := Option.map_eq_some_iff.1 found
      have shorter : behind.length < text.length := (promise_of_bare first).trans dot.2
      obtain ⟨segs, rfl, split⟩ := ih behind.length (size ▸ shorter) further rfl
      obtain ⟨gap, word, rfl, splitWord⟩ := exists_of_bare_identifier first
      refine ⟨(gap, word) :: segs, rfl, ?_⟩
      rw [eq_cons_of_dot? single, splitWord, split]
      simp [segmentChars]

theorem exists_of_bare_name {head : String} (read : bare (name text) = .ok (head, rest)) :
    ∃ phrase : NamePhrase, phrase.head = head ∧ text = phrase.chars ++ rest := by
  rw [bare_name] at read
  obtain ⟨⟨first, behind⟩, starts, read⟩ := bind_eq_ok_iff.1 read
  obtain ⟨⟨others, last⟩, further, read⟩ := bind_eq_ok_iff.1 read
  cases read
  obtain ⟨front, word, rfl, splitWord⟩ := exists_of_bare_identifier starts
  obtain ⟨segs, rfl, splitSegments⟩ := exists_of_bare_segments_eq further
  refine ⟨⟨front, word, segs⟩, rfl, ?_⟩
  rw [splitWord, splitSegments]
  simp [NamePhrase.chars]

theorem exists_of_bare_arrays {element whole : Signature}
    (read : bare (arrays element text) = .ok (whole, rest)) :
    ∃ (marks : List Mark) (back : Blanks), arrayed element marks = whole ∧
      text = markChars marks ++ (back.1 ++ rest) := by
  induction length : text.length using Nat.strong_induction_on generalizing text element with
  | _ size ih =>
    rw [bare_arrays] at read
    split at read
    · next behindOpen opens =>
      split at read
      · cases read
      · next behindClose closes =>
        have shorter : behindClose.length < size := by
          have := length_lt_of_behindFront? opens
          have := length_lt_of_behindFront? closes
          omega
        obtain ⟨marks, back, same, split⟩ := ih _ shorter read rfl
        obtain ⟨outside, opened⟩ := exists_of_behindFront? opens
        obtain ⟨inside, closed⟩ := exists_of_behindFront? closes
        refine ⟨.brackets outside inside :: marks, back, same, ?_⟩
        rw [opened, closed, split]
        simp [markChars, Mark.chars]
    · split at read
      · cases read
        obtain ⟨back, split⟩ := exists_blanks text
        exact ⟨[], back, rfl, split⟩
      · next behindDots dots =>
        have shorter : behindDots.length < size := length ▸ length_lt_of_behindFront? dots
        obtain ⟨marks, back, same, split⟩ := ih _ shorter read rfl
        obtain ⟨outside, dotted⟩ := exists_of_behindFront? dots
        refine ⟨.dots outside :: marks, back, same, ?_⟩
        rw [dotted, split]
        simp [markChars, Mark.chars]

/-- A text begins with a derivation of a signature, and what is left stands behind white space. -/
def BeginsWith (signature : Signature) (text rest : List Char) : Prop :=
  ∃ (phrase : TypePhrase) (back : Blanks), phrase.PartsWords ∧ phrase.signature = signature ∧
    text = phrase.chars ++ (back.1 ++ rest)

def BeginsWithArguments (args : List Signature) (text rest : List Char) : Prop :=
  ∃ phrase : ArgumentPhrase, phrase.PartsWords ∧ phrase.signatures = args ∧
    text = phrase.chars ++ rest

/-- All that is read from shorter texts is derived. -/
def DerivesBelow (size : Nat) : Prop :=
  ∀ text : List Char, text.length < size →
    (∀ signature rest, bare (type text) = .ok (signature, rest) →
      BeginsWith signature text rest) ∧
    ∀ args rest, bare (arguments text) = .ok (args, rest) → BeginsWithArguments args text rest

theorem TypePhrase.chars_ne_nil (phrase : TypePhrase) : phrase.chars ≠ [] := by
  have name (name : NamePhrase) (more : List Char) : name.chars ++ more ≠ [] := by
    obtain ⟨c, part, chars, -⟩ := name.first.exists_cons
    simp [NamePhrase.chars, chars]
  cases phrase with
  | anything front => simp [TypePhrase.chars]
  | bounded front gap word bound => simp [TypePhrase.chars]
  | plain head marks =>
    rw [TypePhrase.chars]
    exact name head _
  | applied head opening args marks =>
    rw [TypePhrase.chars]
    exact name head _

/-- Whether a type continues a word in front of it is seen in the type itself. -/
theorem endsWord_append_iff (phrase : TypePhrase) (rest : List Char) :
    EndsWord (phrase.chars ++ rest) ↔ EndsWord phrase.chars := by
  rw [EndsWord, EndsWord, List.head?_append_of_ne_nil _ phrase.chars_ne_nil]

theorem endsWord_of_behindWord? {word behind : List Char}
    (found : behindWord? word text = some behind) :
    behindFront? word (trimFront text) = some behind ∧ EndsWord behind := by
  obtain ⟨stands, ends⟩ := Option.filter_eq_some_iff.1 found
  exact ⟨stands, by simpa [EndsWord] using ends⟩

theorem beginsWith_bounded {front : Blanks} {behindMark behindWord : List Char}
    {bound : Signature} (word : BoundWord)
    (split : text = front.1 ++ '?' :: behindMark)
    (found : behindWord? word.chars behindMark = some behindWord)
    (further : BeginsWith bound behindWord rest) :
    BeginsWith (word.signature bound) text rest := by
  obtain ⟨stands, ends⟩ := endsWord_of_behindWord? found
  obtain ⟨gap, splitMark⟩ := exists_of_behindFront? stands
  obtain ⟨phrase, back, parts, rfl, splitWord⟩ := further
  rw [splitWord, endsWord_append_iff] at ends
  refine ⟨.bounded front gap word phrase, back, ⟨ends, parts⟩, rfl, ?_⟩
  rw [split, splitMark, splitWord]
  simp [TypePhrase.chars]

theorem beginsWith_of_bareWildcard {front : Blanks} {behindMark : List Char}
    {signature : Signature} (derives : DerivesBelow behindMark.length)
    (split : text = front.1 ++ '?' :: behindMark)
    (read : bareWildcard behindMark = .ok (signature, rest)) : BeginsWith signature text rest := by
  unfold bareWildcard at read
  split at read
  · next behindWord found =>
    obtain ⟨⟨bound, last⟩, further, done⟩ := bind_eq_ok_iff.1 read
    cases done
    exact beginsWith_bounded .below split found
      ((derives _ (length_lt_of_behindWord? found)).1 _ _ further)
  · split at read
    · next behindWord found =>
      obtain ⟨⟨bound, last⟩, further, done⟩ := bind_eq_ok_iff.1 read
      cases done
      exact beginsWith_bounded .above split found
        ((derives _ (length_lt_of_behindWord? found)).1 _ _ further)
    · cases read
      refine ⟨.anything front, ⟨[], by simp⟩, trivial, rfl, ?_⟩
      rw [split]
      simp [TypePhrase.chars]

theorem beginsWith_of_bareBase {signature : Signature} (derives : DerivesBelow text.length)
    (read : bareBase text = .ok (signature, rest)) : BeginsWith signature text rest := by
  obtain ⟨⟨head, behindName⟩, named, read⟩ := bind_eq_ok_iff.1 read
  have behind : behindName.length < text.length := promise_of_bare named
  obtain ⟨name, rfl, splitName⟩ := exists_of_bare_name named
  dsimp only at read
  split at read
  · obtain ⟨marks, back, rfl, split⟩ := exists_of_bare_arrays read
    refine ⟨.plain name marks, back, trivial, rfl, ?_⟩
    rw [splitName, split]
    simp [TypePhrase.chars]
  · next behindOpen found =>
    obtain ⟨⟨args, behindClose⟩, inside, marked⟩ := bind_eq_ok_iff.1 read
    obtain ⟨phrase, parts, rfl, splitInside⟩ :=
      (derives behindOpen ((length_lt_of_behindFront? found).trans behind)).2 _ _ inside
    obtain ⟨opening, splitOpening⟩ := exists_of_behindFront? found
    dsimp only at marked
    obtain ⟨marks, back, rfl, splitMarks⟩ := exists_of_bare_arrays marked
    refine ⟨.applied name opening phrase marks, back, parts, rfl, ?_⟩
    rw [splitName, splitOpening, splitInside, splitMarks]
    simp [TypePhrase.chars]

theorem beginsWith_of_bare_type {signature : Signature} (derives : DerivesBelow text.length)
    (read : bare (type text) = .ok (signature, rest)) : BeginsWith signature text rest := by
  rw [bare_type] at read
  split at read
  · next behindMark found =>
    obtain ⟨front, split⟩ := exists_of_behindFront? found
    refine beginsWith_of_bareWildcard (fun other shorter => derives other ?_) split read
    exact shorter.trans (length_lt_of_behindFront? found)
  · exact beginsWith_of_bareBase derives read

theorem beginsWithArguments_of_bare {args : List Signature} (derives : DerivesBelow text.length)
    (read : bare (arguments text) = .ok (args, rest)) : BeginsWithArguments args text rest := by
  rw [bare_arguments] at read
  obtain ⟨⟨arg, behindArg⟩, first, read⟩ := bind_eq_ok_iff.1 read
  have behind : behindArg.length < text.length := promise_of_bare first
  obtain ⟨phrase, back, parts, rfl, split⟩ := beginsWith_of_bare_type derives first
  dsimp only at read
  unfold bareFurther at read
  -- the white space behind the argument stands in front of the token that follows
  split at read
  · next behindComma found =>
    obtain ⟨⟨others, last⟩, further, done⟩ := bind_eq_ok_iff.1 read
    cases done
    obtain ⟨phrases, partsOthers, rfl, splitOthers⟩ :=
      (derives behindComma ((length_lt_of_behindFront? found).trans behind)).2 _ _ further
    rw [← trimFront_blanks_append back] at found
    obtain ⟨comma, splitComma⟩ := exists_of_behindFront? found
    refine ⟨.further phrase comma phrases, ⟨parts, partsOthers⟩, rfl, ?_⟩
    rw [split, splitComma, splitOthers]
    simp [ArgumentPhrase.chars]
  · split at read
    · next behindClose found =>
      cases read
      rw [← trimFront_blanks_append back] at found
      obtain ⟨closing, splitClosing⟩ := exists_of_behindFront? found
      refine ⟨.last phrase closing, parts, rfl, ?_⟩
      rw [split, splitClosing]
      simp [ArgumentPhrase.chars]
    · cases read

theorem derivesBelow (size : Nat) : DerivesBelow size := by
  induction size with
  | zero => exact fun text impossible => absurd impossible (Nat.not_lt_zero _)
  | succ size ih =>
    intro text short
    have shorter : DerivesBelow text.length := fun other less => ih other (by omega)
    exact ⟨fun _ _ => beginsWith_of_bare_type shorter,
      fun _ _ => beginsWithArguments_of_bare shorter⟩

end Sound

section Complete

theorem bare_identifier_blanks (front : Blanks) (rest : List Char) :
    bare (identifier (front.1 ++ rest)) = bare (identifier rest) := by
  rw [bare_identifier, bare_identifier, trimFront_blanks_append]

theorem bare_segments_chars (segs : List (Blanks × Identifier)) (ends : EndsName rest) :
    bare (segments (segmentChars segs ++ rest)) = .ok (dotted (segs.map (·.2.1)), rest) := by
  induction segs with
  | nil =>
    change bare (segments rest) = .ok ([], rest)
    rw [bare_segments, ends.dotless]
    rfl
  | cons segment others ih =>
    obtain ⟨gap, word⟩ := segment
    have split : segmentChars ((gap, word) :: others) ++ rest =
        '.' :: (gap.1 ++ (word.1 ++ (segmentChars others ++ rest))) := by
      simp [segmentChars]
    rw [bare_segments, split, dot?_segment]
    dsimp only
    rw [bare_identifier_blanks,
      bare_identifier_append word.2 (endsWord_segments others ends)]
    change (bare (segments (segmentChars others ++ rest)) >>= _) = _
    rw [ih]
    simp [bind, Except.bind, pure, Except.pure, dotted]

theorem bare_name_chars (phrase : NamePhrase) (ends : EndsName rest) :
    bare (name (phrase.chars ++ rest)) = .ok (phrase.head, rest) := by
  obtain ⟨front, first, others⟩ := phrase
  rw [bare_name, NamePhrase.chars, List.append_assoc, List.append_assoc, bare_identifier_blanks,
    bare_identifier_append first.2 (endsWord_segments others ends)]
  change (bare (segments (segmentChars others ++ rest)) >>= _) = _
  rw [bare_segments_chars others ends]
  rfl

theorem bare_arrays_chars (element : Signature) (marks : List Mark) (closes : Closes rest) :
    bare (arrays element (markChars marks ++ rest)) =
      .ok (arrayed element marks, trimFront rest) := by
  induction marks generalizing element with
  | nil =>
    rw [markChars, List.flatMap_nil, List.nil_append, bare_arrays,
      behindFront?_of_closes closes _ (by decide), behindFront?_of_closes closes _ (by decide)]
    rfl
  | cons mark others ih =>
    have split : markChars (mark :: others) ++ rest = mark.chars ++ (markChars others ++ rest) := by
      simp [markChars]
    rw [split, bare_arrays]
    cases mark with
    | brackets outside inside =>
      have opens := behindFront?_blanks outside (by decide : isBlank '[' = false) []
        (inside.1 ++ ']' :: (markChars others ++ rest))
      have closing := behindFront?_blanks inside (by decide : isBlank ']' = false) []
        (markChars others ++ rest)
      simp only [List.nil_append] at opens closing
      simp only [Mark.chars, List.append_assoc, List.cons_append, List.nil_append, opens, closing]
      exact ih _
    | dots outside =>
      have dots := behindFront?_blanks outside (by decide : isBlank '.' = false) ['.', '.']
        (markChars others ++ rest)
      have noBracket : behindFront? ['[']
          (trimFront (outside.1 ++ '.' :: '.' :: '.' :: (markChars others ++ rest))) = none := by
        rw [trimFront_blanks outside (by decide)]
        rfl
      simp only [List.cons_append, List.nil_append] at dots
      simp only [Mark.chars, List.append_assoc, List.cons_append, List.nil_append, dots, noBracket]
      exact ih _

theorem behindFront?_mark_name (name : NamePhrase) (rest : List Char) :
    behindFront? ['?'] (trimFront (name.chars ++ rest)) = none := by
  obtain ⟨c, part, chars, starts⟩ := name.first.exists_cons
  rw [NamePhrase.chars, chars, List.append_assoc, List.cons_append, List.cons_append,
    trimFront_blanks _ (not_isBlank_of_isNameStart starts)]
  exact behindFront?_of_ne (ne_of_isNameStart starts (by decide)).symm _ _

theorem bare_type_plain (name : NamePhrase) (marks : List Mark) (closes : Closes rest) :
    bare (type ((TypePhrase.plain name marks).chars ++ rest)) =
      .ok ((TypePhrase.plain name marks).signature, trimFront rest) := by
  have opening : behindFront? ['<'] (trimFront (markChars marks ++ rest)) = none := by
    cases found : behindFront? ['<'] (trimFront (markChars marks ++ rest)) with
    | none => rfl
    | some behind =>
      obtain ⟨front, split⟩ := exists_of_behindFront? found
      exact absurd split (marks_ne_arguments marks closes front behind)
  rw [TypePhrase.chars, TypePhrase.signature, List.append_assoc, bare_type,
    behindFront?_mark_name]
  dsimp only
  rw [bareBase, bare_name_chars name (endsName_marks marks closes)]
  simp only [bind, Except.bind, opening]
  exact bare_arrays_chars _ marks closes

theorem bare_type_applied_chars (name : NamePhrase) (opening : Blanks) {args : ArgumentPhrase}
    (marks : List Mark) (closes : Closes rest)
    (inside : ∀ more, bare (arguments (args.chars ++ more)) = .ok (args.signatures, more)) :
    bare (type ((TypePhrase.applied name opening args marks).chars ++ rest)) =
      .ok ((TypePhrase.applied name opening args marks).signature, trimFront rest) := by
  have opens := behindFront?_blanks opening (by decide : isBlank '<' = false) []
    (args.chars ++ (markChars marks ++ rest))
  rw [List.nil_append] at opens
  have split : (TypePhrase.applied name opening args marks).chars ++ rest =
      name.chars ++ (opening.1 ++ '<' :: (args.chars ++ (markChars marks ++ rest))) := by
    simp [TypePhrase.chars]
  rw [split, TypePhrase.signature, bare_type, behindFront?_mark_name]
  dsimp only
  rw [bareBase, bare_name_chars name (endsName_arguments opening _)]
  simp only [bind, Except.bind, opens, inside]
  exact bare_arrays_chars _ marks closes

theorem bare_type_wildcard (front : Blanks) (behindMark : List Char) :
    bare (type (front.1 ++ '?' :: behindMark)) = bareWildcard behindMark := by
  have mark := behindFront?_blanks front (by decide : isBlank '?' = false) [] behindMark
  rw [List.nil_append] at mark
  rw [bare_type, mark]

theorem bareWildcard_of_closes (closes : Closes rest) : bareWildcard rest = .ok (anything, rest) := by
  rw [bareWildcard, behindWord?, behindWord?, behindFront?_of_closes closes _ (by decide),
    behindFront?_of_closes closes _ (by decide)]
  rfl

theorem bareWildcard_bounded (gap : Blanks) (word : BoundWord) (ends : EndsWord text) :
    bareWildcard (gap.1 ++ (word.chars ++ text)) =
      (bare (type text)).map fun (bound, rest) => (word.signature bound, rest) := by
  have parts : (!text.head?.any isNameChar) = true := by
    rw [EndsWord] at ends
    rw [ends]
    rfl
  cases word with
  | below =>
    have found := behindFront?_blanks gap (by decide : isBlank 'e' = false)
      ['x', 't', 'e', 'n', 'd', 's'] text
    rw [bareWildcard, behindWord?, BoundWord.chars]
    simp only [List.cons_append, List.nil_append] at found ⊢
    rw [found, Option.filter_some, if_pos parts]
    dsimp only
    cases bare (type text) <;> rfl
  | above =>
    have found := behindFront?_blanks gap (by decide : isBlank 's' = false)
      ['u', 'p', 'e', 'r'] text
    have other : behindFront? ['e', 'x', 't', 'e', 'n', 'd', 's']
        (trimFront (gap.1 ++ 's' :: 'u' :: 'p' :: 'e' :: 'r' :: text)) = none := by
      rw [trimFront_blanks gap (by decide)]
      rfl
    rw [bareWildcard, behindWord?, behindWord?, BoundWord.chars]
    simp only [List.cons_append, List.nil_append] at found ⊢
    rw [other, found, Option.filter_none, Option.filter_some, if_pos parts]
    dsimp only
    cases bare (type text) <;> rfl

mutual

/-- A derived type is read where no type is continued by what follows. -/
theorem TypePhrase.exists_bare : ∀ (phrase : TypePhrase) {rest : List Char}, phrase.PartsWords →
    Closes rest → ∃ left, bare (type (phrase.chars ++ rest)) = .ok (phrase.signature, left) ∧
      trimFront left = trimFront rest
  | .anything front, rest, _, closes => by
    refine ⟨rest, ?_, rfl⟩
    rw [TypePhrase.chars, List.append_assoc]
    exact (bare_type_wildcard front rest).trans (bareWildcard_of_closes closes)
  | .bounded front gap word bound, rest, ⟨ends, parts⟩, closes => by
    obtain ⟨left, read, same⟩ := bound.exists_bare parts closes
    refine ⟨left, ?_, same⟩
    have split : (TypePhrase.bounded front gap word bound).chars ++ rest =
        front.1 ++ '?' :: (gap.1 ++ (word.chars ++ (bound.chars ++ rest))) := by
      simp [TypePhrase.chars]
    rw [split, bare_type_wildcard,
      bareWildcard_bounded gap word ((endsWord_append_iff bound rest).2 ends), read]
    rfl
  | .plain name marks, rest, _, closes =>
    ⟨_, bare_type_plain name marks closes, trimFront_trimFront rest⟩
  | .applied name opening args marks, rest, parts, closes =>
    ⟨_, bare_type_applied_chars name opening marks closes (fun _ => args.bare_chars parts),
      trimFront_trimFront rest⟩

theorem ArgumentPhrase.bare_chars : ∀ (args : ArgumentPhrase) {rest : List Char},
    args.PartsWords → bare (arguments (args.chars ++ rest)) = .ok (args.signatures, rest)
  | .last arg closing, rest, parts => by
    obtain ⟨left, read, same⟩ := arg.exists_bare parts (closes_closing closing rest)
    have split : (ArgumentPhrase.last arg closing).chars ++ rest =
        arg.chars ++ (closing.1 ++ '>' :: rest) := by
      simp [ArgumentPhrase.chars]
    rw [trimFront_blanks closing (by decide)] at same
    rw [split, bare_arguments, read]
    change bareFurther arg.signature left = _
    rw [bareFurther, same]
    rfl
  | .further arg comma others, rest, ⟨parts, partsOthers⟩ => by
    obtain ⟨left, read, same⟩ := arg.exists_bare parts (closes_comma comma (others.chars ++ rest))
    have split : (ArgumentPhrase.further arg comma others).chars ++ rest =
        arg.chars ++ (comma.1 ++ ',' :: (others.chars ++ rest)) := by
      simp [ArgumentPhrase.chars]
    have found : behindFront? [','] (trimFront left) = some (others.chars ++ rest) := by
      rw [same, trimFront_blanks comma (by decide)]
      rfl
    rw [split, bare_arguments, read]
    change bareFurther arg.signature left = _
    rw [bareFurther, found]
    dsimp only
    rw [others.bare_chars partsOthers]
    rfl

end

end Complete

/-- Every text has at most one derivation, and reading a text yields the signature it is derived
as, if it is derived. -/
theorem ofText_eq_ok_iff_derivation (text : String) :
    Subsingleton (Derivation text.toList) ∧
      ∀ signature, ofText text = .ok signature ↔
        ∃ derivation : Derivation text.toList, derivation.type.signature = signature := by
  refine ⟨inferInstance, fun signature => ?_⟩
  rw [ofText_eq_ok_iff]
  constructor
  · rintro ⟨rest, read, blank⟩
    obtain ⟨phrase, back, parts, same, split⟩ :=
      beginsWith_of_bare_type (derivesBelow _) read
    have white : ∀ c ∈ back.1 ++ rest, isBlank c = true := by
      intro c member
      rcases List.mem_append.1 member with inside | behind
      · exact back.2 c inside
      · exact List.dropWhile_eq_nil_iff.1 blank c behind
    exact ⟨⟨phrase, ⟨_, white⟩, parts, split.symm⟩, same⟩
  · rintro ⟨⟨phrase, back, parts, yields⟩, rfl⟩
    obtain ⟨left, read, same⟩ := phrase.exists_bare parts (closes_blanks back)
    rw [yields] at read
    refine ⟨left, read, ?_⟩
    rw [same]
    exact List.dropWhile_eq_nil_iff.2 back.2

/-- The word goes on, so that nothing is derived. -/
example : (ofText "? extendsLimit").toOption = none := by
  cbv

end TypeBridge.Signature
