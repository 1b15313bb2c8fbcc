import Mathlib.Tactic.TFAE
import TypeBridge.Proofs.SignatureReaders

/-!
# Signatures are read back from their texts

Reading yields the well-formed signatures: names are identifiers parted by dots, and no array has
wildcards for elements, since the marks behind a wildcard belong to its bound.  The text of a
well-formed signature is read back as that signature.
-/

namespace TypeBridge.Signature

open Outcome Text

variable {text rest : List Char}

def isWildcard : Signature → Bool
  | anything => true
  | anyBelow _ => true
  | anyAbove _ => true
  | _ => false

mutual

/-- Whether names are identifiers parted by dots, and no array has wildcards for elements. -/
def isWellFormed : Signature → Bool
  | named name args => isQualified name && areWellFormed args
  | array element => !element.isWildcard && element.isWellFormed
  | anything => true
  | anyBelow bound => bound.isWellFormed
  | anyAbove bound => bound.isWellFormed

def areWellFormed : List Signature → Bool
  | [] => true
  | arg :: rest => arg.isWellFormed && areWellFormed rest

end

theorem length_lt_of_behindFront? {first : Char} {others behind : List Char}
    (found : behindFront? (first :: others) (trimFront text) = some behind) :
    behind.length < text.length :=
  length_lt_of_token found

theorem length_lt_of_behindWord? {first : Char} {others behind : List Char}
    (found : behindWord? (first :: others) text = some behind) : behind.length < text.length :=
  length_lt_of_token (Option.filter_eq_some_iff.1 found).1

/-- Array marks put a type into arrays. -/
theorem isWellFormed_of_bare_arrays {element whole : Signature}
    (read : bare (arrays element text) = .ok (whole, rest)) (single : element.isWildcard = false)
    (formed : element.isWellFormed = true) : whole.isWellFormed = true := by
  induction length : text.length using Nat.strong_induction_on generalizing text element with
  | _ size ih =>
    have formedArray : (array element).isWellFormed = true := by
      rw [isWellFormed, single, formed]
      rfl
    rw [bare_arrays] at read
    split at read
    · next behindOpen opens =>
      split at read
      · cases read
      · next behindClose closes =>
        have shorter : behindClose.length < size := by
          have := length_lt_of_behindFront? opens
          have := length_lt_of_behindFront? closes
          omega
        exact ih _ shorter read rfl formedArray rfl
    · split at read
      · cases read
        exact formed
      · next behindDots dots =>
        have shorter : behindDots.length < size := length ▸ length_lt_of_behindFront? dots
        exact ih _ shorter read rfl formedArray rfl

/-- All signatures read from shorter texts are well-formed. -/
def FormsBelow (size : Nat) : Prop :=
  ∀ text : List Char, text.length < size →
    (∀ signature rest, bare (type text) = .ok (signature, rest) → signature.isWellFormed = true) ∧
      ∀ args rest, bare (arguments text) = .ok (args, rest) → areWellFormed args = true

theorem isWellFormed_of_bareWildcard {signature : Signature} (forms : FormsBelow text.length)
    (read : bareWildcard text = .ok (signature, rest)) : signature.isWellFormed = true := by
  unfold bareWildcard at read
  split at read
  · next behindWord found =>
    obtain ⟨⟨bound, last⟩, further, done⟩ := bind_eq_ok_iff.1 read
    cases done
    rw [isWellFormed]
    exact (forms _ (length_lt_of_behindWord? found)).1 _ _ further
  · split at read
    · next behindWord found =>
      obtain ⟨⟨bound, last⟩, further, done⟩ := bind_eq_ok_iff.1 read
      cases done
      rw [isWellFormed]
      exact (forms _ (length_lt_of_behindWord? found)).1 _ _ further
    · cases read
      rfl

theorem isWellFormed_of_bareBase {signature : Signature} (forms : FormsBelow text.length)
    (read : bareBase text = .ok (signature, rest)) : signature.isWellFormed = true := by
  obtain ⟨⟨head, behindName⟩, named, read⟩ := bind_eq_ok_iff.1 read
  have qualified := isQualified_of_bare named
  have behind : behindName.length < text.length := promise_of_bare named
  dsimp only at read
  split at read
  · exact isWellFormed_of_bare_arrays read rfl (by rw [isWellFormed, qualified]; rfl)
  · next behindOpen found =>
    obtain ⟨⟨args, behindClose⟩, inside, marked⟩ := bind_eq_ok_iff.1 read
    have formed := (forms behindOpen ((length_lt_of_behindFront? found).trans behind)).2 _ _ inside
    exact isWellFormed_of_bare_arrays marked rfl (by rw [isWellFormed, qualified, formed]; rfl)

theorem isWellFormed_of_bare_type {signature : Signature} (forms : FormsBelow text.length)
    (read : bare (type text) = .ok (signature, rest)) : signature.isWellFormed = true := by
  rw [bare_type] at read
  split at read
  · next behindMark found =>
    refine isWellFormed_of_bareWildcard (fun other shorter => forms other ?_) read
    exact shorter.trans (length_lt_of_behindFront? found)
  · exact isWellFormed_of_bareBase forms read

theorem areWellFormed_of_bare_arguments {args : List Signature} (forms : FormsBelow text.length)
    (read : bare (arguments text) = .ok (args, rest)) : areWellFormed args = true := by
  rw [bare_arguments] at read
  obtain ⟨⟨arg, behindArg⟩, first, read⟩ := bind_eq_ok_iff.1 read
  have formed := isWellFormed_of_bare_type forms first
  have behind : behindArg.length < text.length := promise_of_bare first
  dsimp only at read
  unfold bareFurther at read
  split at read
  · next behindComma found =>
    obtain ⟨⟨others, last⟩, further, done⟩ := bind_eq_ok_iff.1 read
    cases done
    have rest := (forms behindComma ((length_lt_of_behindFront? found).trans behind)).2 _ _ further
    rw [areWellFormed, formed, rest]
    rfl
  · split at read
    · cases read
      rw [areWellFormed, formed]
      rfl
    · cases read

theorem formsBelow (size : Nat) : FormsBelow size := by
  induction size with
  | zero => exact fun text impossible => absurd impossible (Nat.not_lt_zero _)
  | succ size ih =>
    intro text short
    have shorter : FormsBelow text.length := fun other less => ih other (by omega)
    exact ⟨fun _ _ => isWellFormed_of_bare_type shorter,
      fun _ _ => areWellFormed_of_bare_arguments shorter⟩

theorem ofText_eq_ok_iff {text : String} {signature : Signature} :
    ofText text = .ok signature ↔
      ∃ rest, bare (type text.toList) = .ok (signature, rest) ∧ trimFront rest = [] := by
  unfold ofText ofChars
  cases type text.toList with
  | error stuck => simp
  | ok read =>
    obtain ⟨signature', rest, _⟩ := read
    dsimp only
    cases trimmed : trimFront rest with
    | nil => simp [trimmed, and_assoc]
    | cons c unread => simp [trimmed]

theorem isWellFormed_of_ofText {text : String} {signature : Signature}
    (read : ofText text = .ok signature) : signature.isWellFormed = true := by
  obtain ⟨rest, read, -⟩ := ofText_eq_ok_iff.1 read
  exact isWellFormed_of_bare_type (formsBelow _) read

/-- A text that neither a name nor its arguments are continued by. -/
inductive EndsBase : List Char → Prop
  | nothing : EndsBase []
  | mark (rest : List Char) : EndsBase ('[' :: rest)
  | comma (rest : List Char) : EndsBase (',' :: rest)
  | closing (rest : List Char) : EndsBase ('>' :: rest)

/-- A text that no type is continued by. -/
inductive EndsType : List Char → Prop
  | nothing : EndsType []
  | comma (rest : List Char) : EndsType (',' :: rest)
  | closing (rest : List Char) : EndsType ('>' :: rest)

theorem EndsType.endsBase (ends : EndsType rest) : EndsBase rest := by
  cases ends with
  | nothing => exact .nothing
  | comma => exact .comma _
  | closing => exact .closing _

theorem EndsType.trimFront_eq (ends : EndsType rest) : trimFront rest = rest := by
  cases ends with
  | nothing => rfl
  | comma => exact trimFront_cons (by decide) _
  | closing => exact trimFront_cons (by decide) _

theorem EndsBase.trimFront_eq (ends : EndsBase rest) : trimFront rest = rest := by
  cases ends with
  | nothing => rfl
  | mark => exact trimFront_cons (by decide) _
  | comma => exact trimFront_cons (by decide) _
  | closing => exact trimFront_cons (by decide) _

theorem EndsBase.endsName (ends : EndsBase rest) : EndsName rest := by
  cases ends with
  | nothing => exact ⟨rfl, rfl⟩
  | mark => exact ⟨(by decide : isNameChar '[' = false), rfl⟩
  | comma => exact ⟨(by decide : isNameChar ',' = false), rfl⟩
  | closing => exact ⟨(by decide : isNameChar '>' = false), rfl⟩

theorem endsName_opening (rest : List Char) : EndsName ('<' :: rest) :=
  ⟨(by decide : isNameChar '<' = false), rfl⟩

theorem bare_arrays_of_endsType (element : Signature) (ends : EndsType rest) :
    bare (arrays element rest) = .ok (element, rest) := by
  rw [bare_arrays, ends.trimFront_eq]
  cases ends <;> rfl

theorem bare_arrays_mark (element : Signature) (rest : List Char) :
    bare (arrays element ('[' :: ']' :: rest)) = bare (arrays (.array element) rest) := by
  have opens : behindFront? ['['] ('[' :: ']' :: rest) = some (']' :: rest) := rfl
  have closes : behindFront? [']'] (']' :: rest) = some rest := rfl
  rw [bare_arrays, trimFront_cons (by decide), opens]
  dsimp only
  rw [trimFront_cons (by decide), closes]

/-- Blanks in front of a type do not matter. -/
theorem bare_type_blank (rest : List Char) : bare (type (' ' :: rest)) = bare (type rest) := by
  have same : trimFront (' ' :: rest) = trimFront rest :=
    List.dropWhile_cons_of_pos (by decide)
  have word : bare (identifier (' ' :: rest)) = bare (identifier rest) := by
    rw [bare_identifier, bare_identifier, same]
  rw [bare_type, bare_type, same, bareBase, bareBase, bare_name, bare_name, word]

theorem bare_arguments_blank (rest : List Char) :
    bare (arguments (' ' :: rest)) = bare (arguments rest) := by
  rw [bare_arguments, bare_arguments, bare_type_blank]

/-- No name begins with a question mark or a blank. -/
theorem behindFront?_mark_of_isQualified {head : String} (qualifies : isQualified head = true)
    (rest : List Char) : behindFront? ['?'] (trimFront (head.toList ++ rest)) = none := by
  rw [← String.ofList_toList (s := head)] at qualifies
  obtain ⟨first, segs, starts, -, chars⟩ := isQualified_iff.1 qualifies
  rw [chars]
  cases first with
  | nil => cases starts
  | cons c others =>
    have letter : isNameStart c = true := (Bool.and_eq_true_iff.1 starts).1
    have other : '?' ≠ c := (ne_of_isNameStart letter (by decide)).symm
    rw [List.cons_append, List.cons_append, trimFront_cons (not_isBlank_of_isNameStart letter)]
    simp [behindFront?, other]

/-- The characters of a type. -/
abbrev chars (signature : Signature) : List Char :=
  signature.text.toList

theorem chars_named (head : String) (arg : Signature) (others : List Signature) :
    (named head (arg :: others)).chars =
      head.toList ++ '<' :: (arg.chars ++ ((restText others).toList ++ ['>'])) := by
  simp [chars, text]

theorem chars_array (element : Signature) :
    (array element).chars = element.chars ++ ['[', ']'] := by
  simp [chars, text]

theorem bare_type_mark (behindMark : List Char) :
    bare (type ('?' :: behindMark)) = bareWildcard behindMark := by
  have mark : behindFront? ['?'] ('?' :: behindMark) = some behindMark := rfl
  rw [bare_type, trimFront_cons (by decide), mark]

/-- A wildcard bound is read behind its word and a blank. -/
theorem bare_type_anyBelow {bound : Signature} (rest : List Char)
    (further : bare (type (bound.chars ++ rest)) = .ok (bound, rest)) :
    bare (type ((anyBelow bound).chars ++ rest)) = .ok (anyBelow bound, rest) := by
  have split : (anyBelow bound).chars ++ rest =
      '?' :: ' ' :: (['e', 'x', 't', 'e', 'n', 'd', 's'] ++ ' ' :: (bound.chars ++ rest)) := by
    simp [chars, text]
  have word : behindWord? ['e', 'x', 't', 'e', 'n', 'd', 's']
      (' ' :: (['e', 'x', 't', 'e', 'n', 'd', 's'] ++ ' ' :: (bound.chars ++ rest))) =
        some (' ' :: (bound.chars ++ rest)) := rfl
  rw [split, bare_type_mark, bareWildcard, word]
  dsimp only
  rw [bare_type_blank, further]
  rfl

theorem bare_type_anyAbove {bound : Signature} (rest : List Char)
    (further : bare (type (bound.chars ++ rest)) = .ok (bound, rest)) :
    bare (type ((anyAbove bound).chars ++ rest)) = .ok (anyAbove bound, rest) := by
  have split : (anyAbove bound).chars ++ rest =
      '?' :: ' ' :: (['s', 'u', 'p', 'e', 'r'] ++ ' ' :: (bound.chars ++ rest)) := by
    simp [chars, text]
  have noWord : behindWord? ['e', 'x', 't', 'e', 'n', 'd', 's']
      (' ' :: (['s', 'u', 'p', 'e', 'r'] ++ ' ' :: (bound.chars ++ rest))) = none := rfl
  have word : behindWord? ['s', 'u', 'p', 'e', 'r']
      (' ' :: (['s', 'u', 'p', 'e', 'r'] ++ ' ' :: (bound.chars ++ rest))) =
        some (' ' :: (bound.chars ++ rest)) := rfl
  rw [split, bare_type_mark, bareWildcard, noWord, word]
  dsimp only
  rw [bare_type_blank, further]
  rfl

theorem bare_type_anything (ends : EndsType rest) :
    bare (type (anything.chars ++ rest)) = .ok (anything, rest) := by
  have split : anything.chars ++ rest = '?' :: rest := by simp [chars, text]
  rw [split, bare_type_mark, bareWildcard, behindWord?, behindWord?, ends.trimFront_eq]
  cases ends <;> rfl

theorem bare_type_named {head : String} (qualifies : isQualified head = true)
    (ends : EndsBase rest) :
    bare (type (head.toList ++ rest)) = bare (arrays (named head []) rest) := by
  have noOpening : behindFront? ['<'] (trimFront rest) = none := by
    rw [ends.trimFront_eq]
    cases ends <;> rfl
  rw [bare_type, behindFront?_mark_of_isQualified qualifies]
  dsimp only
  rw [bareBase, bare_name_append qualifies ends.endsName]
  simp only [bind, Except.bind, noOpening]

theorem bare_type_applied {head : String} {args : List Signature} {inside : List Char}
    (qualifies : isQualified head = true) (read : bare (arguments inside) = .ok (args, rest)) :
    bare (type (head.toList ++ '<' :: inside)) = bare (arrays (named head args) rest) := by
  have opening : behindFront? ['<'] (trimFront ('<' :: inside)) = some inside := by
    rw [trimFront_cons (by decide)]
    rfl
  rw [bare_type, behindFront?_mark_of_isQualified qualifies]
  dsimp only
  rw [bareBase, bare_name_append qualifies (endsName_opening inside)]
  simp only [bind, Except.bind, opening, read]

theorem bare_arguments_last {arg : Signature}
    (read : bare (type text) = .ok (arg, '>' :: rest)) :
    bare (arguments text) = .ok ([arg], rest) := by
  have noComma : behindFront? [','] ('>' :: rest) = none := rfl
  have closing : behindFront? ['>'] ('>' :: rest) = some rest := rfl
  rw [bare_arguments, read]
  change bareFurther arg ('>' :: rest) = _
  rw [bareFurther, trimFront_cons (by decide), noComma]
  dsimp only
  rw [closing]

theorem bare_arguments_further {arg : Signature} {others : List Signature} {more : List Char}
    (read : bare (type text) = .ok (arg, ',' :: more))
    (further : bare (arguments more) = .ok (others, rest)) :
    bare (arguments text) = .ok (arg :: others, rest) := by
  have comma : behindFront? [','] (',' :: more) = some more := rfl
  rw [bare_arguments, read]
  change bareFurther arg (',' :: more) = _
  rw [bareFurther, trimFront_cons (by decide), comma]
  dsimp only
  rw [further]
  rfl

/-- What is read where the text of a type stands: the type up to what ends it, and a type that is
no wildcard up to the marks behind it. -/
structure ReadsBack (signature : Signature) : Prop where
  whole : ∀ rest, EndsType rest → bare (type (signature.chars ++ rest)) = .ok (signature, rest)
  base : signature.isWildcard = false → ∀ rest, EndsBase rest →
    bare (type (signature.chars ++ rest)) = bare (arrays signature rest)

theorem ReadsBack.of_base {signature : Signature}
    (base : ∀ rest, EndsBase rest →
      bare (type (signature.chars ++ rest)) = bare (arrays signature rest)) :
    ReadsBack signature where
  whole rest ends := by rw [base rest ends.endsBase, bare_arrays_of_endsType _ ends]
  base _ := base

theorem readsBack_anything : ReadsBack anything where
  whole _ := bare_type_anything
  base := nofun

theorem ReadsBack.anyBelow {bound : Signature} (back : ReadsBack bound) :
    ReadsBack (anyBelow bound) where
  whole rest ends := bare_type_anyBelow rest (back.whole rest ends)
  base := nofun

theorem ReadsBack.anyAbove {bound : Signature} (back : ReadsBack bound) :
    ReadsBack (anyAbove bound) where
  whole rest ends := bare_type_anyAbove rest (back.whole rest ends)
  base := nofun

theorem ReadsBack.array {element : Signature} (back : ReadsBack element)
    (single : element.isWildcard = false) : ReadsBack (array element) := by
  refine .of_base fun rest _ => ?_
  have split : (Signature.array element).chars ++ rest = element.chars ++ '[' :: ']' :: rest := by
    simp [chars_array]
  rw [split, back.base single _ (.mark _), bare_arrays_mark]

theorem readsBack_name {head : String} (qualifies : isQualified head = true) :
    ReadsBack (named head []) := by
  refine .of_base fun rest ends => ?_
  have split : (named head []).chars = head.toList := by rw [chars, text]
  rw [split, bare_type_named qualifies ends]

/-- Arguments that are read up to the angle that closes them. -/
def ArgumentsReadBack (arg : Signature) (others : List Signature) : Prop :=
  ∀ rest, bare (arguments (arg.chars ++ ((restText others).toList ++ '>' :: rest))) =
    .ok (arg :: others, rest)

theorem ReadsBack.last {arg : Signature} (back : ReadsBack arg) : ArgumentsReadBack arg [] := by
  intro rest
  have split : (restText []).toList ++ '>' :: rest = '>' :: rest := by simp [restText]
  rw [split]
  exact bare_arguments_last (back.whole _ (.closing rest))

theorem ReadsBack.further {arg second : Signature} {others : List Signature}
    (back : ReadsBack arg) (rest : ArgumentsReadBack second others) :
    ArgumentsReadBack arg (second :: others) := by
  intro last
  have split : (restText (second :: others)).toList ++ '>' :: last =
      ',' :: ' ' :: (second.chars ++ ((restText others).toList ++ '>' :: last)) := by
    simp [chars, restText]
  rw [split]
  refine bare_arguments_further (back.whole _ (.comma _)) ?_
  rw [bare_arguments_blank, rest last]

theorem ArgumentsReadBack.applied {head : String} {arg : Signature} {others : List Signature}
    (back : ArgumentsReadBack arg others) (qualifies : isQualified head = true) :
    ReadsBack (named head (arg :: others)) := by
  refine .of_base fun rest _ => ?_
  have split : (named head (arg :: others)).chars ++ rest =
      head.toList ++ '<' :: (arg.chars ++ ((restText others).toList ++ '>' :: rest)) := by
    simp [chars_named]
  rw [split, bare_type_applied qualifies (back rest)]

mutual

theorem readsBack : ∀ signature : Signature, signature.isWellFormed = true → ReadsBack signature
  | anything, _ => readsBack_anything
  | anyBelow bound, formed => (readsBack bound (by simpa [isWellFormed] using formed)).anyBelow
  | anyAbove bound, formed => (readsBack bound (by simpa [isWellFormed] using formed)).anyAbove
  | array element, formed => by
    obtain ⟨single, formed⟩ := Bool.and_eq_true_iff.1 formed
    exact (readsBack element formed).array (by simpa using single)
  | named head [], formed => readsBack_name (Bool.and_eq_true_iff.1 formed).1
  | named head (arg :: others), formed => by
    obtain ⟨qualifies, formed⟩ := Bool.and_eq_true_iff.1 formed
    obtain ⟨formedArg, formed⟩ := Bool.and_eq_true_iff.1 formed
    exact (argumentsReadBack others formed (readsBack arg formedArg)).applied qualifies

theorem argumentsReadBack : ∀ (others : List Signature), areWellFormed others = true →
    ∀ {arg : Signature}, ReadsBack arg → ArgumentsReadBack arg others
  | [], _, _, back => back.last
  | second :: others, formed, _, back => by
    obtain ⟨formedSecond, formed⟩ := Bool.and_eq_true_iff.1 formed
    exact back.further (argumentsReadBack others formed (readsBack second formedSecond))

end

/-- The signatures read from texts are those read from their own text, and these are exactly the
well-formed ones. -/
theorem ofText_text_tfae (signature : Signature) :
    [∃ text, ofText text = .ok signature,
      ofText signature.text = .ok signature,
      signature.isWellFormed = true].TFAE := by
  tfae_have 1 → 3 := by
    rintro ⟨text, read⟩
    exact isWellFormed_of_ofText read
  tfae_have 3 → 2 := by
    intro formed
    have read := (readsBack signature formed).whole [] .nothing
    rw [List.append_nil] at read
    exact ofText_eq_ok_iff.2 ⟨[], read, rfl⟩
  tfae_have 2 → 1 := fun read => ⟨_, read⟩
  tfae_finish

end TypeBridge.Signature
