import Mathlib.Data.List.Infix
import Mathlib.Data.List.TakeWhile
import TypeBridge.Proofs.LiteralTexts

/-!
# The texts of comments

A text is put into a comment as it is, line by line.  So what is written is one comment exactly when
nothing in the text ends a comment.
-/

namespace TypeBridge

namespace Text

/-- What a comment ends with. -/
def commentEnd : List Char :=
  ['*', '/']

/-- A comment ends inside of a text. -/
def EndsComment (text : List Char) : Prop :=
  commentEnd <:+: text

instance (text : List Char) : Decidable (EndsComment text) :=
  inferInstanceAs (Decidable (commentEnd <:+: text))

theorem pair_infix_append_iff {α : Type} {a b : α} {front back : List α} :
    [a, b] <:+: front ++ back ↔
      [a, b] <:+: front ∨ [a, b] <:+: back ∨ front.getLast? = some a ∧ back.head? = some b := by
  induction front with
  | nil => simp
  | cons c front ih =>
    rw [List.cons_append, List.infix_cons_iff, ih, List.infix_cons_iff]
    cases front with
    | nil =>
      cases back with
      | nil => simp [List.cons_prefix_cons]
      | cons d back =>
        simp only [List.nil_append, List.cons_prefix_cons, List.nil_prefix, and_true,
          List.prefix_nil, List.cons_ne_nil, and_false, List.infix_nil, false_or,
          List.getLast?_nil, reduceCtorEq, false_and, List.getLast?_singleton, List.head?_cons,
          Option.some.injEq, or_false]
        rw [or_comm, eq_comm (a := a), eq_comm (a := b)]
    | cons d front => simp [List.cons_prefix_cons, or_assoc]

section EndsComment

variable {front back text : List Char}

theorem endsComment_append_iff : EndsComment (front ++ back) ↔
    EndsComment front ∨ EndsComment back ∨ front.getLast? = some '*' ∧ back.head? = some '/' :=
  pair_infix_append_iff

/-- No comment ends in a text without one of the two characters. -/
theorem not_endsComment (missing : '*' ∉ text ∨ '/' ∉ text) : ¬ EndsComment text := by
  intro ends
  have star : '*' ∈ text := ends.subset (by decide)
  have slash : '/' ∈ text := ends.subset (by decide)
  exact missing.elim (· star) (· slash)

theorem not_endsComment_nil : ¬ EndsComment [] :=
  not_endsComment (.inl List.not_mem_nil)

theorem endsComment_append_of_notMem (star : '*' ∉ back) (slash : '/' ∉ back) :
    EndsComment (front ++ back) ↔ EndsComment front := by
  rw [endsComment_append_iff, or_iff_left]
  rintro (ends | ⟨-, first⟩)
  · exact not_endsComment (.inl star) ends
  · exact slash (List.mem_of_head? first)

theorem endsComment_append_of_notMem_front (star : '*' ∉ front) :
    EndsComment (front ++ back) ↔ EndsComment back := by
  rw [endsComment_append_iff, or_iff_right (not_endsComment (.inl star)), or_iff_left]
  exact fun ends => star (List.mem_of_getLast? ends.1)

theorem endsComment_cons_iff {c : Char} (star : c ≠ '*') :
    EndsComment (c :: text) ↔ EndsComment text :=
  endsComment_append_of_notMem_front (mt List.mem_singleton.1 star.symm)

/-- Another character keeps apart what stands on its two sides. -/
theorem endsComment_append_cons_iff {c : Char} (star : c ≠ '*') (slash : c ≠ '/') :
    EndsComment (front ++ c :: back) ↔ EndsComment front ∨ EndsComment back := by
  simp [endsComment_append_iff, endsComment_cons_iff star, slash]

theorem ne_of_isBlank {c : Char} (blank : isBlank c = true) : c ≠ '*' ∧ c ≠ '/' := by
  constructor <;> rintro rfl <;> revert blank <;> decide

theorem endsComment_trimFront : EndsComment (trimFront text) ↔ EndsComment text := by
  have apart : text.takeWhile isBlank ++ trimFront text = text := List.takeWhile_append_dropWhile
  have same : EndsComment (text.takeWhile isBlank ++ trimFront text) ↔
      EndsComment (trimFront text) :=
    endsComment_append_of_notMem_front fun star =>
      (ne_of_isBlank (List.mem_takeWhile_imp star)).1 rfl
  rw [← same, apart]

theorem endsComment_trimBack : EndsComment (trimBack text) ↔ EndsComment text := by
  have apart : trimBack text ++ (text.reverse.takeWhile isBlank).reverse = text := by
    rw [trimBack, ← List.reverse_append, List.takeWhile_append_dropWhile, List.reverse_reverse]
  have blank : ∀ c ∈ (text.reverse.takeWhile isBlank).reverse, c ≠ '*' ∧ c ≠ '/' := fun c inside =>
    ne_of_isBlank (List.mem_takeWhile_imp (List.mem_reverse.1 inside))
  have same : EndsComment (trimBack text ++ (text.reverse.takeWhile isBlank).reverse) ↔
      EndsComment (trimBack text) :=
    endsComment_append_of_notMem (fun star => (blank _ star).1 rfl)
      fun slash => (blank _ slash).2 rfl
  rw [← same, apart]

theorem endsComment_trim : EndsComment (trim text) ↔ EndsComment text :=
  endsComment_trimBack.trans endsComment_trimFront

theorem endsComment_withoutReturn : EndsComment (withoutReturn text) ↔ EndsComment text := by
  unfold withoutReturn
  split
  · next ended =>
    obtain ⟨front, rfl⟩ := List.getLast?_eq_some_iff.1 ended
    rw [List.dropLast_concat]
    exact (endsComment_append_of_notMem (by decide) (by decide)).symm
  · rfl

theorem endsComment_cleanEnds (pieces : List (List Char)) :
    (∃ line ∈ cleanEnds pieces, EndsComment line) ↔ ∃ piece ∈ pieces, EndsComment piece := by
  fun_induction cleanEnds pieces with
  | case1 => rfl
  | case2 last empty =>
    obtain rfl := List.isEmpty_iff.1 empty
    simp [not_endsComment_nil]
  | case3 => rfl
  | case4 line rest _ ih => simp [endsComment_withoutReturn, ih]

theorem endsComment_intercalate (pieces : List (List Char)) :
    EndsComment (['\n'].intercalate pieces) ↔ ∃ piece ∈ pieces, EndsComment piece := by
  induction pieces with
  | nil => simpa using not_endsComment_nil
  | cons piece pieces ih =>
    cases pieces with
    | nil => simp
    | cons next pieces =>
      rw [List.intercalate_cons_cons, List.append_assoc, List.singleton_append,
        endsComment_append_cons_iff (by decide) (by decide), ih, List.exists_mem_cons_iff _ piece]

/-- A comment ends inside of a text exactly when it ends inside of a line. -/
theorem endsComment_lines : (∃ line ∈ lines text, EndsComment line) ↔ EndsComment text := by
  rw [lines, endsComment_cleanEnds, ← endsComment_intercalate, List.intercalate_splitOn]

end EndsComment

/-- A comment that is opened, and that ends nowhere but at its end. -/
def IsBlockComment (text : List Char) : Prop :=
  ∃ body, text = ['/', '*', '*'] ++ body ∧ commentEnd <:+ body ∧
    ∀ front rest, body = front ++ commentEnd ++ rest → rest = []

theorem isBlockComment_iff {inside : List Char} :
    IsBlockComment (['/', '*', '*'] ++ (inside ++ commentEnd)) ↔
      ¬ EndsComment (inside ++ ['*']) := by
  constructor
  · rintro ⟨body, same, -, first⟩ ⟨front, rest, ends⟩
    obtain rfl := List.append_cancel_left same
    have early := first front (rest ++ ['/']) (by rw [← List.append_assoc, ends]; simp [commentEnd])
    exact List.append_ne_nil_of_right_ne_nil rest (List.cons_ne_nil _ _) early
  · intro unended
    refine ⟨_, rfl, List.suffix_append _ _, fun front rest same => ?_⟩
    rcases List.eq_nil_or_concat rest with rfl | ⟨others, last, rfl⟩
    · rfl
    · have cut : inside ++ ['*'] = front ++ commentEnd ++ others := by
        have whole : (inside ++ ['*']) ++ ['/'] = (front ++ commentEnd ++ others) ++ [last] := by
          simpa [commentEnd] using same
        exact (List.append_inj' whole rfl).1
      exact absurd ⟨front, others, cut.symm⟩ unended

/-- An indented comment with the end of its last line. -/
def IsIndentedComment (margin text : String) : Prop :=
  ∃ comment, text.toList = margin.toList ++ comment ++ ['\n'] ∧ IsBlockComment comment

end Text

namespace Page

open Text (EndsComment IsBlockComment IsIndentedComment)

theorem star_notMem_margin (indent : Indent) (depth : Nat) :
    '*' ∉ (margin indent depth).toList := by
  induction depth with
  | zero => simp [margin]
  | succ depth ih =>
    have unit : '*' ∉ indent.unit.toList := by
      unfold Indent.unit
      split <;> decide
    rw [margin_succ, String.toList_append, List.mem_append]
    exact not_or.2 ⟨ih, unit⟩

/-- The line of a comment block for a line of its text. -/
def commentRow (line : List Char) : String :=
  match Text.trimBack line with
  | [] => " *"
  | content => " * " ++ String.ofList content

theorem endsComment_commentRow (line : List Char) :
    EndsComment (commentRow line).toList ↔ EndsComment line := by
  refine Iff.trans ?_ Text.endsComment_trimBack
  unfold commentRow
  split
  · next empty =>
    rw [empty]
    exact iff_of_false (Text.not_endsComment (.inr (by decide))) Text.not_endsComment_nil
  · have star : ¬ EndsComment [' ', '*'] := Text.not_endsComment (.inr (by decide))
    have blank : ' ' ≠ '*' ∧ ' ' ≠ '/' := by decide
    rw [String.toList_append, String.toList_ofList, String.toList_ofList]
    exact (Text.endsComment_append_cons_iff blank.1 blank.2).trans (or_iff_right star)

theorem commentLines_eq (text : String) :
    commentLines text =
      if 2 ≤ (Text.lines text.toList).length then
        "/**" :: (Text.lines text.toList).map commentRow ++ [" */"]
      else ["/** " ++ String.ofList (Text.trim text.toList) ++ " */"] := by
  unfold commentLines
  split
  · next first second rest several =>
    rw [if_pos (by simp [several]), several]
    rfl
  · next single =>
    rw [if_neg]
    intro several
    match known : Text.lines text.toList, several with
    | first :: second :: rest, _ => exact single first second rest known

/-- A comment as it is written, with the indentation of its lines. -/
def commentText (margin : String) (text : String) : String :=
  String.join ((commentLines text).map fun line => margin ++ line ++ "\n")

theorem foldl_line (page : Page) (lines : List String) :
    lines.foldl line page =
      page.append (String.join (lines.map fun line =>
        margin page.indent page.depth ++ line ++ "\n")) := by
  induction lines generalizing page with
  | nil => simp [append]
  | cons first lines ih =>
    rw [List.foldl_cons, ih, line_eq, append_append, List.map_cons, String.join_cons]
    rfl

theorem comment_eq (page : Page) (text : String) :
    page.comment text = page.append (commentText (margin page.indent page.depth) text) :=
  foldl_line page (commentLines text)

/-- The lines of a comment block keep apart what they are written for. -/
theorem endsComment_rows {margin back : List Char} (plain : '*' ∉ margin)
    (rows : List (List Char)) :
    EndsComment (rows.flatMap (fun row => margin ++ row ++ ['\n']) ++ back) ↔
      (∃ row ∈ rows, EndsComment row) ∨ EndsComment back := by
  induction rows with
  | nil => simp
  | cons row rows ih =>
    have split : (row :: rows).flatMap (fun row => margin ++ row ++ ['\n']) ++ back =
        (margin ++ row) ++
          '\n' :: (rows.flatMap (fun row => margin ++ row ++ ['\n']) ++ back) := by
      simp
    rw [split, Text.endsComment_append_cons_iff (by decide) (by decide), ih,
      Text.endsComment_append_of_notMem_front plain, List.exists_mem_cons_iff, or_assoc]

/-- What stands between the opening and the end of a comment. -/
def commentInside (margin text : List Char) : List Char :=
  if 2 ≤ (Text.lines text).length then
    '\n' :: (((Text.lines text).map fun line => (commentRow line).toList).flatMap
      (fun row => margin ++ row ++ ['\n']) ++ (margin ++ [' ']))
  else ' ' :: (Text.trim text ++ [' '])

theorem toList_commentText (margin text : String) :
    (commentText margin text).toList =
      margin.toList ++ (['/', '*', '*'] ++
        (commentInside margin.toList text.toList ++ Text.commentEnd)) ++ ['\n'] := by
  rw [commentText, commentLines_eq, commentInside]
  split
  · simp [Text.commentEnd, String.toList_join, List.flatMap_map, Function.comp_def]
  · simp [Text.commentEnd]

theorem endsComment_commentInside {margin : List Char} (plain : '*' ∉ margin) (text : List Char) :
    EndsComment (commentInside margin text ++ ['*']) ↔ EndsComment text := by
  unfold commentInside
  split
  · have last : ¬ EndsComment (margin ++ [' ', '*']) := by
      rw [Text.endsComment_append_of_notMem_front plain]
      exact Text.not_endsComment (.inr (by decide))
    rw [List.cons_append, Text.endsComment_cons_iff (by decide), List.append_assoc,
      List.append_assoc, List.singleton_append, endsComment_rows plain, or_iff_left last]
    simpa [endsComment_commentRow] using Text.endsComment_lines
  · have star : ¬ EndsComment ['*'] := Text.not_endsComment (.inr (by decide))
    rw [List.cons_append, Text.endsComment_cons_iff (by decide), List.append_assoc,
      List.singleton_append, Text.endsComment_append_cons_iff (by decide) (by decide),
      or_iff_left star, Text.endsComment_trim]

/-- A comment is one comment exactly when none ends inside of its text. -/
theorem isIndentedComment_commentText {margin : String} (plain : '*' ∉ margin.toList)
    (text : String) :
    IsIndentedComment margin (commentText margin text) ↔ ¬ EndsComment text.toList := by
  rw [← endsComment_commentInside plain, ← Text.isBlockComment_iff, IsIndentedComment,
    toList_commentText]
  constructor
  · rintro ⟨comment, same, whole⟩
    have equal := List.append_cancel_left (List.append_cancel_right same)
    exact equal ▸ whole
  · exact fun whole => ⟨_, rfl, whole⟩

end Page

end TypeBridge
