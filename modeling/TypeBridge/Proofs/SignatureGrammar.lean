import TypeBridge.Proofs.SignatureRoundTrip

/-!
# The grammar of signatures

    type     := wildcard | base ("[]" | "...")*
    wildcard := "?" (("extends" | "super") type)?
    base     := name ("<" type ("," type)* ">")?
    name     := identifier ("." identifier)*

A derivation is kept as a tree with the white space in front of every token; only the dots inside a
name have none.  The words `extends` and `super` are words as long as no identifier character
follows.  An identifier follows every dot of a name, so no dot of `...` is one.  A text has at most
one derivation.
-/

namespace TypeBridge.Signature

open Text

variable {text rest rest' : List Char}

/-- White space in front of a token. -/
abbrev Blanks : Type :=
  { chars : List Char // ∀ c ∈ chars, isBlank c = true }

abbrev Identifier : Type :=
  { chars : List Char // isIdentifier chars = true }

/-- A name: an identifier, and further ones behind dots. -/
structure NamePhrase where
  front : Blanks
  first : Identifier
  others : List (Blanks × Identifier)

/-- What makes an array of a type: `[]` or `...`. -/
inductive Mark where
  | brackets (outside inside : Blanks)
  | dots (outside : Blanks)

/-- The word in front of the bound of a wildcard: `extends` or `super`. -/
inductive BoundWord where
  | below
  | above

mutual

/-- A derivation of a type, with a constructor for each form of a wildcard and of a base. -/
inductive TypePhrase where
  | anything (front : Blanks)
  | bounded (front gap : Blanks) (word : BoundWord) (bound : TypePhrase)
  | plain (name : NamePhrase) (marks : List Mark)
  | applied (name : NamePhrase) (opening : Blanks) (args : ArgumentPhrase) (marks : List Mark)

/-- Types parted by commas, up to the closing angle. -/
inductive ArgumentPhrase where
  | last (arg : TypePhrase) (closing : Blanks)
  | further (arg : TypePhrase) (comma : Blanks) (rest : ArgumentPhrase)

end

section Texts

/-- The further segments of a name. -/
def segmentChars (segments : List (Blanks × Identifier)) : List Char :=
  segments.flatMap fun (gap, word) => '.' :: (gap.1 ++ word.1)

def NamePhrase.chars (name : NamePhrase) : List Char :=
  name.front.1 ++ (name.first.1 ++ segmentChars name.others)

def Mark.chars : Mark → List Char
  | brackets outside inside => outside.1 ++ '[' :: (inside.1 ++ [']'])
  | dots outside => outside.1 ++ ['.', '.', '.']

def markChars (marks : List Mark) : List Char :=
  marks.flatMap (·.chars)

def BoundWord.chars : BoundWord → List Char
  | below => ['e', 'x', 't', 'e', 'n', 'd', 's']
  | above => ['s', 'u', 'p', 'e', 'r']

mutual

/-- The text that a derivation derives. -/
def TypePhrase.chars : TypePhrase → List Char
  | .anything front => front.1 ++ ['?']
  | .bounded front gap word bound => front.1 ++ '?' :: (gap.1 ++ (word.chars ++ bound.chars))
  | .plain name marks => name.chars ++ markChars marks
  | .applied name opening args marks =>
    name.chars ++ (opening.1 ++ '<' :: (args.chars ++ markChars marks))

def ArgumentPhrase.chars : ArgumentPhrase → List Char
  | .last arg closing => arg.chars ++ (closing.1 ++ ['>'])
  | .further arg comma rest => arg.chars ++ (comma.1 ++ ',' :: rest.chars)

end

end Texts

section Signatures

/-- The name without white space. -/
def NamePhrase.head (name : NamePhrase) : String :=
  String.ofList (name.first.1 ++ dotted (name.others.map (·.2.1)))

def arrayed (element : Signature) (marks : List Mark) : Signature :=
  marks.foldl (fun inner _ => array inner) element

def BoundWord.signature (bound : Signature) : BoundWord → Signature
  | below => anyBelow bound
  | above => anyAbove bound

mutual

/-- The signature that a text is derived as. -/
def TypePhrase.signature : TypePhrase → Signature
  | .anything _ => .anything
  | .bounded _ _ word bound => word.signature bound.signature
  | .plain name marks => arrayed (named name.head []) marks
  | .applied name _ args marks => arrayed (named name.head args.signatures) marks

def ArgumentPhrase.signatures : ArgumentPhrase → List Signature
  | .last arg _ => [arg.signature]
  | .further arg _ rest => arg.signature :: rest.signatures

end

end Signatures

mutual

/-- No identifier character follows `extends` or `super`. -/
def TypePhrase.PartsWords : TypePhrase → Prop
  | .anything _ => True
  | .bounded _ _ _ bound => EndsWord bound.chars ∧ bound.PartsWords
  | .plain _ _ => True
  | .applied _ _ args _ => args.PartsWords

def ArgumentPhrase.PartsWords : ArgumentPhrase → Prop
  | .last arg _ => arg.PartsWords
  | .further arg _ rest => arg.PartsWords ∧ rest.PartsWords

end

/-- A derivation of a whole text, which may end in white space. -/
structure Derivation (text : List Char) where
  type : TypePhrase
  back : Blanks
  parts : type.PartsWords
  yields : type.chars ++ back.1 = text

section Blanks

theorem trimFront_blanks (front : Blanks) {c : Char} (visible : isBlank c = false)
    (more : List Char) : trimFront (front.1 ++ c :: more) = c :: more := by
  rw [trimFront, List.dropWhile_append_of_pos front.2]
  exact trimFront_cons visible more

theorem exists_blanks (text : List Char) : ∃ front : Blanks, text = front.1 ++ trimFront text :=
  ⟨⟨text.takeWhile isBlank, fun _ => List.mem_takeWhile_imp⟩, List.takeWhile_append_dropWhile.symm⟩

/-- A token and the white space in front of it are told apart. -/
theorem blanks_append_inj {front front' : Blanks} {c c' : Char} {more more' : List Char}
    (visible : isBlank c = false) (visible' : isBlank c' = false)
    (same : front.1 ++ c :: more = front'.1 ++ c' :: more') :
    front = front' ∧ c = c' ∧ more = more' := by
  have trimmed := congrArg trimFront same
  rw [trimFront_blanks front visible, trimFront_blanks front' visible'] at trimmed
  obtain ⟨rfl, rfl⟩ := List.cons.inj trimmed
  exact ⟨Subtype.ext (List.append_cancel_right same), rfl, rfl⟩

theorem Identifier.exists_cons (word : Identifier) :
    ∃ c part, word.1 = c :: part ∧ isNameStart c = true := by
  obtain ⟨chars, identifies⟩ := word
  cases chars with
  | nil => cases identifies
  | cons c part => exact ⟨c, part, rfl, (Bool.and_eq_true_iff.1 identifies).1⟩

/-- An identifier is told apart from the white space in front of it and the text behind it. -/
theorem blanks_word_append_inj {front front' : Blanks} {word word' : Identifier}
    (ends : EndsWord rest) (ends' : EndsWord rest')
    (same : front.1 ++ (word.1 ++ rest) = front'.1 ++ (word'.1 ++ rest')) :
    front = front' ∧ word = word' ∧ rest = rest' := by
  obtain ⟨c, part, chars, starts⟩ := word.exists_cons
  obtain ⟨c', part', chars', starts'⟩ := word'.exists_cons
  have visible := not_isBlank_of_isNameStart starts
  have visible' := not_isBlank_of_isNameStart starts'
  have equal := same
  rw [chars, chars', List.cons_append, List.cons_append] at equal
  obtain ⟨rfl, -⟩ := blanks_append_inj visible visible' equal
  -- what the reader of identifiers reads is determined by the text
  have read := bare_identifier_append word.2 ends
  rw [List.append_cancel_left same, bare_identifier_append word'.2 ends'] at read
  obtain ⟨equalWord, equalRest⟩ := Prod.mk.inj (Except.ok.inj read)
  exact ⟨rfl, Subtype.ext equalWord.symm, equalRest.symm⟩

end Blanks

section Ends

/-- A text that no type is continued by: what follows its white space ends a type. -/
def Closes (rest : List Char) : Prop :=
  EndsType (trimFront rest)

theorem closes_blanks (back : Blanks) : Closes back.1 := by
  have nothing : trimFront back.1 = [] := List.dropWhile_eq_nil_iff.2 back.2
  rw [Closes, nothing]
  exact .nothing

theorem closes_comma (comma : Blanks) (rest : List Char) : Closes (comma.1 ++ ',' :: rest) := by
  rw [Closes, trimFront_blanks comma (by decide)]
  exact .comma rest

theorem closes_closing (closing : Blanks) (rest : List Char) :
    Closes (closing.1 ++ '>' :: rest) := by
  rw [Closes, trimFront_blanks closing (by decide)]
  exact .closing rest

theorem Closes.eq_or {front : Blanks} {c : Char} {more : List Char} (visible : isBlank c = false)
    (closes : Closes (front.1 ++ c :: more)) : c = ',' ∨ c = '>' := by
  rw [Closes, trimFront_blanks front visible] at closes
  cases closes with
  | comma => exact .inl rfl
  | closing => exact .inr rfl

theorem dot?_of_ne {c : Char} (apart : c ≠ '.') (more : List Char) : dot? (c :: more) = none := by
  refine dot?.eq_3 _ ?_ ?_
  · rintro others same
    exact apart (List.cons.inj same).1
  · rintro others same
    exact apart (List.cons.inj same).1

theorem EndsName.blanks (front : Blanks) (ends : EndsName rest) : EndsName (front.1 ++ rest) := by
  obtain ⟨chars, blank⟩ := front
  cases chars with
  | nil => exact ends
  | cons c others =>
    have white : isBlank c = true := blank c List.mem_cons_self
    constructor
    · exact not_isNameChar_of_isBlank white
    · refine dot?_of_ne ?_ _
      rintro rfl
      exact absurd white (by decide)

theorem Closes.endsName (closes : Closes rest) : EndsName rest := by
  obtain ⟨front, split⟩ := exists_blanks rest
  rw [split]
  exact EndsName.blanks front closes.endsBase.endsName

theorem endsName_marks (marks : List Mark) (closes : Closes rest) :
    EndsName (markChars marks ++ rest) := by
  cases marks with
  | nil => exact closes.endsName
  | cons mark others =>
    rw [markChars, List.flatMap_cons, List.append_assoc]
    cases mark with
    | brackets outside inside =>
      rw [Mark.chars, List.append_assoc]
      exact .blanks outside ⟨(by decide : isNameChar '[' = false), rfl⟩
    | dots outside =>
      rw [Mark.chars, List.append_assoc]
      exact .blanks outside ⟨(by decide : isNameChar '.' = false), rfl⟩

theorem endsName_arguments (opening : Blanks) (rest : List Char) :
    EndsName (opening.1 ++ '<' :: rest) :=
  .blanks opening (endsName_opening rest)

theorem dot?_segment (gap : Blanks) (word : Identifier) (rest : List Char) :
    (dot? ('.' :: (gap.1 ++ (word.1 ++ rest)))).map (·.1) = some (gap.1 ++ (word.1 ++ rest)) := by
  obtain ⟨chars, blank⟩ := gap
  cases chars with
  | nil =>
    obtain ⟨c, part, same, starts⟩ := word.exists_cons
    rw [List.nil_append, same]
    exact dot?_cons (ne_of_isNameStart starts (by decide)) _
  | cons c others =>
    refine dot?_cons ?_ _
    rintro rfl
    exact absurd (blank '.' List.mem_cons_self) (by decide)

theorem endsWord_segments (segments : List (Blanks × Identifier)) (ends : EndsName rest) :
    EndsWord (segmentChars segments ++ rest) := by
  cases segments with
  | nil => exact ends.word
  | cons segment others => exact (by decide : isNameChar '.' = false)

end Ends

section Unambiguous

theorem segmentChars_append_inj {segments segments' : List (Blanks × Identifier)}
    (ends : EndsName rest) (ends' : EndsName rest')
    (same : segmentChars segments ++ rest = segmentChars segments' ++ rest') :
    segments = segments' ∧ rest = rest' := by
  -- a text with a further segment ends no name
  have clash : ∀ {gap : Blanks} {word : Identifier} {others : List (Blanks × Identifier)}
      {rest rest' : List Char}, EndsName rest →
      rest ≠ segmentChars ((gap, word) :: others) ++ rest' := by
    intro gap word others rest rest' ends equal
    have dot := dot?_segment gap word (segmentChars others ++ rest')
    have spread : segmentChars ((gap, word) :: others) ++ rest' =
        '.' :: (gap.1 ++ (word.1 ++ (segmentChars others ++ rest'))) := by
      simp [segmentChars]
    rw [← spread, ← equal, ends.dotless] at dot
    cases dot
  induction segments generalizing segments' with
  | nil =>
    cases segments' with
    | nil => exact ⟨rfl, same⟩
    | cons segment others => exact absurd same (clash ends)
  | cons segment others ih =>
    cases segments' with
    | nil => exact absurd same.symm (clash ends')
    | cons segment' others' =>
      obtain ⟨gap, word⟩ := segment
      obtain ⟨gap', word'⟩ := segment'
      simp only [segmentChars, List.flatMap_cons, List.cons_append, List.append_assoc,
        List.cons.injEq, true_and] at same
      obtain ⟨rfl, rfl, further⟩ := blanks_word_append_inj (endsWord_segments others ends)
        (endsWord_segments others' ends') same
      obtain ⟨rfl, rfl⟩ := ih further
      exact ⟨rfl, rfl⟩

theorem NamePhrase.chars_append_inj {name name' : NamePhrase} (ends : EndsName rest)
    (ends' : EndsName rest') (same : name.chars ++ rest = name'.chars ++ rest') :
    name = name' ∧ rest = rest' := by
  obtain ⟨front, first, others⟩ := name
  obtain ⟨front', first', others'⟩ := name'
  simp only [NamePhrase.chars, List.append_assoc] at same
  obtain ⟨rfl, rfl, further⟩ := blanks_word_append_inj (endsWord_segments others ends)
    (endsWord_segments others' ends') same
  obtain ⟨rfl, rfl⟩ := segmentChars_append_inj ends ends' further
  exact ⟨rfl, rfl⟩

theorem Mark.exists_chars (mark : Mark) : ∃ (outside : Blanks) (c : Char) (more : List Char),
    mark.chars = outside.1 ++ c :: more ∧ (c = '[' ∨ c = '.') := by
  cases mark with
  | brackets outside inside => exact ⟨outside, _, _, rfl, .inl rfl⟩
  | dots outside => exact ⟨outside, _, _, rfl, .inr rfl⟩

theorem ne_mark_append (closes : Closes rest) (mark : Mark) (more : List Char) :
    rest ≠ mark.chars ++ more := by
  rintro rfl
  obtain ⟨outside, c, others, chars, either⟩ := mark.exists_chars
  rw [chars, List.append_assoc] at closes
  rcases either with rfl | rfl
  · exact absurd (closes.eq_or (by decide)) (by decide)
  · exact absurd (closes.eq_or (by decide)) (by decide)

theorem markChars_append_inj {marks marks' : List Mark} (closes : Closes rest)
    (closes' : Closes rest') (same : markChars marks ++ rest = markChars marks' ++ rest') :
    marks = marks' ∧ rest = rest' := by
  induction marks generalizing marks' with
  | nil =>
    cases marks' with
    | nil => exact ⟨rfl, same⟩
    | cons mark others =>
      rw [markChars, markChars, List.flatMap_cons, List.append_assoc] at same
      exact absurd same (ne_mark_append closes mark _)
  | cons mark others ih =>
    cases marks' with
    | nil =>
      rw [markChars, markChars, List.flatMap_cons, List.append_assoc] at same
      exact absurd same.symm (ne_mark_append closes' mark _)
    | cons mark' others' =>
      simp only [markChars, List.flatMap_cons, List.append_assoc] at same
      have rest_inj : markChars others ++ rest = markChars others' ++ rest' →
          mark = mark' → mark :: others = mark' :: others' ∧ rest = rest' := by
        rintro further rfl
        obtain ⟨rfl, rfl⟩ := ih further
        exact ⟨rfl, rfl⟩
      cases mark with
      | brackets outside inside =>
        cases mark' with
        | brackets outside' inside' =>
          simp only [Mark.chars, List.append_assoc, List.cons_append, List.nil_append] at same
          obtain ⟨rfl, -, same⟩ := blanks_append_inj (by decide) (by decide) same
          obtain ⟨rfl, -, same⟩ := blanks_append_inj (by decide) (by decide) same
          exact rest_inj same rfl
        | dots outside' =>
          simp only [Mark.chars, List.append_assoc, List.cons_append] at same
          exact absurd (blanks_append_inj (by decide) (by decide) same).2.1 (by decide)
      | dots outside =>
        cases mark' with
        | brackets outside' inside' =>
          simp only [Mark.chars, List.append_assoc, List.cons_append] at same
          exact absurd (blanks_append_inj (by decide) (by decide) same).2.1 (by decide)
        | dots outside' =>
          simp only [Mark.chars, List.append_assoc, List.cons_append, List.nil_append] at same
          obtain ⟨rfl, -, same⟩ := blanks_append_inj (by decide) (by decide) same
          simp only [List.cons.injEq, true_and] at same
          exact rest_inj same rfl

/-- Behind a name stand marks or arguments, not both. -/
theorem marks_ne_arguments (marks : List Mark) (closes : Closes rest) (opening : Blanks)
    (more : List Char) : markChars marks ++ rest ≠ opening.1 ++ '<' :: more := by
  intro same
  cases marks with
  | nil =>
    rw [markChars, List.flatMap_nil, List.nil_append] at same
    rw [same] at closes
    exact absurd (closes.eq_or (by decide)) (by decide)
  | cons mark others =>
    obtain ⟨outside, c, further, chars, either⟩ := mark.exists_chars
    rw [markChars, List.flatMap_cons, chars, List.append_assoc, List.append_assoc] at same
    rcases either with rfl | rfl
    · exact absurd (blanks_append_inj (by decide) (by decide) same).2.1 (by decide)
    · exact absurd (blanks_append_inj (by decide) (by decide) same).2.1 (by decide)

theorem mark_ne_name (front : Blanks) (name : NamePhrase) (more : List Char) :
    front.1 ++ '?' :: more ≠ name.chars ++ rest := by
  intro same
  obtain ⟨c, part, chars, starts⟩ := name.first.exists_cons
  rw [NamePhrase.chars, chars, List.append_assoc] at same
  have equal := (blanks_append_inj (by decide) (not_isBlank_of_isNameStart starts) same).2.1
  exact ne_of_isNameStart starts (by decide) equal.symm

theorem BoundWord.exists_chars (word : BoundWord) :
    ∃ c more, word.chars = c :: more ∧ (c = 'e' ∨ c = 's') := by
  cases word with
  | below => exact ⟨_, _, rfl, .inl rfl⟩
  | above => exact ⟨_, _, rfl, .inr rfl⟩

/-- A wildcard that is followed by no type has no bound. -/
theorem ne_word_append (closes : Closes rest) (gap : Blanks) (word : BoundWord)
    (more : List Char) : rest ≠ gap.1 ++ (word.chars ++ more) := by
  rintro rfl
  obtain ⟨c, others, chars, either⟩ := word.exists_chars
  rw [chars] at closes
  rcases either with rfl | rfl
  · exact absurd (closes.eq_or (by decide)) (by decide)
  · exact absurd (closes.eq_or (by decide)) (by decide)

theorem blanks_boundWord_append_inj {gap gap' : Blanks} {word word' : BoundWord}
    (same : gap.1 ++ (word.chars ++ rest) = gap'.1 ++ (word'.chars ++ rest')) :
    gap = gap' ∧ word = word' ∧ rest = rest' := by
  cases word with
  | below =>
    cases word' with
    | below =>
      obtain ⟨rfl, -, same⟩ := blanks_append_inj (by decide) (by decide) same
      exact ⟨rfl, rfl, by simpa using same⟩
    | above => exact absurd (blanks_append_inj (by decide) (by decide) same).2.1 (by decide)
  | above =>
    cases word' with
    | below => exact absurd (blanks_append_inj (by decide) (by decide) same).2.1 (by decide)
    | above =>
      obtain ⟨rfl, -, same⟩ := blanks_append_inj (by decide) (by decide) same
      exact ⟨rfl, rfl, by simpa using same⟩

theorem wildcard_ne_base {front : Blanks} {name : NamePhrase} {behind more : List Char} :
    (front.1 ++ '?' :: behind) ++ rest ≠ (name.chars ++ more) ++ rest' := by
  rw [List.append_assoc, List.append_assoc]
  exact mark_ne_name front name _

theorem plain_ne_applied {name name' : NamePhrase} {marks : List Mark} {opening : Blanks}
    {more : List Char} (closes : Closes rest) :
    (name.chars ++ markChars marks) ++ rest ≠
      (name'.chars ++ (opening.1 ++ '<' :: more)) ++ rest' := by
  intro same
  simp only [List.append_assoc, List.cons_append] at same
  obtain ⟨-, further⟩ := NamePhrase.chars_append_inj (endsName_marks marks closes)
    (endsName_arguments opening _) same
  exact marks_ne_arguments marks closes opening _ further

theorem anything_ne_bounded {front front' gap : Blanks} {word : BoundWord} {more : List Char}
    (closes : Closes rest) :
    (front.1 ++ ['?']) ++ rest ≠
      (front'.1 ++ '?' :: (gap.1 ++ (word.chars ++ more))) ++ rest' := by
  intro same
  simp only [List.append_assoc, List.cons_append, List.nil_append] at same
  obtain ⟨-, -, further⟩ := blanks_append_inj (by decide) (by decide) same
  exact ne_word_append closes gap word _ further

theorem last_ne_further {closing comma : Blanks} {more : List Char} :
    closing.1 ++ '>' :: rest ≠ comma.1 ++ ',' :: more :=
  fun same => absurd (blanks_append_inj (by decide) (by decide) same).2.1 (by decide)

mutual

/-- Where no type is continued by what follows, a text is derived in at most one way. -/
theorem TypePhrase.chars_append_inj : ∀ {phrase phrase' : TypePhrase} {rest rest' : List Char},
    Closes rest → Closes rest' → phrase.chars ++ rest = phrase'.chars ++ rest' →
      phrase = phrase' ∧ rest = rest'
  | .anything front, .anything front', rest, rest', _, _, same => by
    simp only [TypePhrase.chars, List.append_assoc, List.cons_append, List.nil_append] at same
    obtain ⟨rfl, -, rfl⟩ := blanks_append_inj (by decide) (by decide) same
    exact ⟨rfl, rfl⟩
  | .bounded front gap word bound, .bounded front' gap' word' bound', rest, rest', closes,
      closes', same => by
    simp only [TypePhrase.chars, List.append_assoc, List.cons_append] at same
    obtain ⟨rfl, -, behindMark⟩ := blanks_append_inj (by decide) (by decide) same
    obtain ⟨rfl, rfl, behindWord⟩ := blanks_boundWord_append_inj behindMark
    obtain ⟨rfl, rfl⟩ := bound.chars_append_inj closes closes' behindWord
    exact ⟨rfl, rfl⟩
  | .plain name marks, .plain name' marks', rest, rest', closes, closes', same => by
    simp only [TypePhrase.chars, List.append_assoc] at same
    obtain ⟨rfl, behindName⟩ := NamePhrase.chars_append_inj (endsName_marks marks closes)
      (endsName_marks marks' closes') same
    obtain ⟨rfl, rfl⟩ := markChars_append_inj closes closes' behindName
    exact ⟨rfl, rfl⟩
  | .applied name opening args marks, .applied name' opening' args' marks', rest, rest', closes,
      closes', same => by
    simp only [TypePhrase.chars, List.append_assoc, List.cons_append] at same
    obtain ⟨rfl, behindName⟩ := NamePhrase.chars_append_inj (endsName_arguments opening _)
      (endsName_arguments opening' _) same
    obtain ⟨rfl, -, inside⟩ := blanks_append_inj (by decide) (by decide) behindName
    obtain ⟨rfl, behindArgs⟩ := args.chars_append_inj inside
    obtain ⟨rfl, rfl⟩ := markChars_append_inj closes closes' behindArgs
    exact ⟨rfl, rfl⟩
  | .anything _, .bounded .., _, _, closes, _, same => (anything_ne_bounded closes same).elim
  | .bounded .., .anything _, _, _, _, closes', same => (anything_ne_bounded closes' same.symm).elim
  | .plain .., .applied .., _, _, closes, _, same => (plain_ne_applied closes same).elim
  | .applied .., .plain .., _, _, _, closes', same => (plain_ne_applied closes' same.symm).elim
  | .anything _, .plain .., _, _, _, _, same => (wildcard_ne_base same).elim
  | .anything _, .applied .., _, _, _, _, same => (wildcard_ne_base same).elim
  | .bounded .., .plain .., _, _, _, _, same => (wildcard_ne_base same).elim
  | .bounded .., .applied .., _, _, _, _, same => (wildcard_ne_base same).elim
  | .plain .., .anything _, _, _, _, _, same => (wildcard_ne_base same.symm).elim
  | .plain .., .bounded .., _, _, _, _, same => (wildcard_ne_base same.symm).elim
  | .applied .., .anything _, _, _, _, _, same => (wildcard_ne_base same.symm).elim
  | .applied .., .bounded .., _, _, _, _, same => (wildcard_ne_base same.symm).elim

theorem ArgumentPhrase.chars_append_inj : ∀ {args args' : ArgumentPhrase}
    {rest rest' : List Char}, args.chars ++ rest = args'.chars ++ rest' →
      args = args' ∧ rest = rest'
  | .last arg closing, .last arg' closing', rest, rest', same => by
    simp only [ArgumentPhrase.chars, List.append_assoc, List.cons_append, List.nil_append] at same
    obtain ⟨rfl, behindArg⟩ := arg.chars_append_inj (closes_closing closing _)
      (closes_closing closing' _) same
    obtain ⟨rfl, -, rfl⟩ := blanks_append_inj (by decide) (by decide) behindArg
    exact ⟨rfl, rfl⟩
  | .further arg comma others, .further arg' comma' others', rest, rest', same => by
    simp only [ArgumentPhrase.chars, List.append_assoc, List.cons_append] at same
    obtain ⟨rfl, behindArg⟩ := arg.chars_append_inj (closes_comma comma _)
      (closes_comma comma' _) same
    obtain ⟨rfl, -, behindComma⟩ := blanks_append_inj (by decide) (by decide) behindArg
    obtain ⟨rfl, rfl⟩ := others.chars_append_inj behindComma
    exact ⟨rfl, rfl⟩
  | .last arg closing, .further arg' comma others, rest, rest', same => by
    simp only [ArgumentPhrase.chars, List.append_assoc, List.cons_append, List.nil_append] at same
    exact (last_ne_further (arg.chars_append_inj (closes_closing closing _)
      (closes_comma comma _) same).2).elim
  | .further arg comma others, .last arg' closing, rest, rest', same => by
    simp only [ArgumentPhrase.chars, List.append_assoc, List.cons_append, List.nil_append] at same
    exact (last_ne_further (arg.chars_append_inj (closes_comma comma _)
      (closes_closing closing _) same).2.symm).elim

end

/-- The grammar is unambiguous. -/
instance Derivation.subsingleton (text : List Char) : Subsingleton (Derivation text) := by
  constructor
  rintro ⟨phrase, back, parts, yields⟩ ⟨phrase', back', parts', yields'⟩
  obtain ⟨rfl, same⟩ := TypePhrase.chars_append_inj (closes_blanks back) (closes_blanks back')
    (yields.trans yields'.symm)
  cases Subtype.ext same
  rfl

end Unambiguous

end TypeBridge.Signature
