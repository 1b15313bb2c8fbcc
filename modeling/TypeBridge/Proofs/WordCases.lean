import TypeBridge.Proofs.ArtifactNames
import TypeBridge.Script.Naming

/-!
# The characters of words in each case

Running the words of an ASCII text together in Pascal or camel case changes the case of characters
only, and nothing but the separators is lost.
-/

namespace TypeBridge.Text

variable {text : String}

def IsAscii (text : String) : Prop :=
  ∀ c ∈ text.toList, Letter.isAscii c = true

instance (text : String) : Decidable (IsAscii text) :=
  decidable_of_iff (text.toList.all Letter.isAscii = true) List.all_eq_true

/-- The characters of a text that are no separators. -/
def wordChars (text : String) : List Char :=
  text.toList.filter (!isSeparator ·)

section Characters

theorem isAscii_ofNat_toLower :
    ∀ code < 0x80, Letter.isAscii (Char.ofNat code).toLower = true := by
  decide +kernel

theorem isAscii_toLower {c : Char} (ascii : Letter.isAscii c = true) :
    Letter.isAscii c.toLower = true := by
  have small := isAscii_ofNat_toLower c.toNat (of_decide_eq_true ascii)
  rwa [Char.ofNat_toNat] at small

theorem isDigit_toLower (c : Char) : c.toLower.isDigit = c.isDigit := by
  simp only [Char.isDigit, Char.toLower]
  split <;> grind [UInt32.toNat_add, Char.toNat_val]

theorem isAlphanum_toLower (c : Char) : c.toLower.isAlphanum = c.isAlphanum := by
  rw [Char.isAlphanum, Char.isAlphanum, Char.isAlpha_toLower_eq_isAlpha, isDigit_toLower]

theorem isAscii_of_mem_map_toLower {chars : List Char}
    (ascii : ∀ c ∈ chars, Letter.isAscii c = true) :
    ∀ c ∈ chars.map Char.toLower, Letter.isAscii c = true := by
  intro c member
  obtain ⟨d, known, rfl⟩ := List.mem_map.1 member
  exact isAscii_toLower (ascii d known)

end Characters

section Words

theorem flatten_splitOnP {α : Type} (p : α → Bool) (all : List α) :
    (all.splitOnP p).flatten = all.filter (!p ·) := by
  induction all with
  | nil => simp
  | cons first rest ih =>
    rw [List.splitOnP_cons_eq_if_modifyHead]
    by_cases parts : p first = true
    · simp [parts, ih]
    · cases split : rest.splitOnP p with
      | nil => exact absurd split (List.splitOnP_ne_nil p rest)
      | cons piece others =>
        rw [split] at ih
        simp [parts, ← ih]

theorem flatMap_lowered {chars : List Char} (ascii : ∀ c ∈ chars, Letter.isAscii c = true) :
    chars.flatMap Letter.lowered = chars.map Char.toLower := by
  have single : ∀ c ∈ chars, Letter.lowered c = [c.toLower] := by
    intro c member
    rw [Letter.lowered, if_pos (ascii c member)]
  rw [List.flatMap_congr single, List.map_eq_flatMap]

theorem ascii_wordChars (ascii : IsAscii text) : ∀ c ∈ wordChars text, Letter.isAscii c = true :=
  fun c member => ascii c (List.mem_filter.1 member).1

/-- The words of a text hold its characters in small case. -/
theorem flatten_words (ascii : IsAscii text) :
    (words text).flatten = (wordChars text).map Char.toLower := by
  have pieces : ∀ pieces : List (List Char),
      (pieces.flatMap cutAtCase).flatten = pieces.flatten := by
    intro pieces
    induction pieces with
    | nil => rfl
    | cons piece rest ih => simp [ih, flatten_cutAtCase]
  have lowered : ∀ cuts : List (List Char),
      (cuts.map (·.flatMap Letter.lowered)).flatten = cuts.flatten.flatMap Letter.lowered := by
    intro cuts
    induction cuts with
    | nil => rfl
    | cons cut rest ih => simp [ih]
  rw [words, lowered, pieces, flatten_splitOnP]
  exact flatMap_lowered (ascii_wordChars ascii)

theorem nil_notMem_cutAtCase (piece : List Char) : [] ∉ cutAtCase piece := by
  fun_induction cutAtCase piece with
  | case1 => simp
  | case2 => simp
  | case3 before c rest opens ih => simpa using ih
  | case4 before c rest opens ih =>
    cases cut : cutAtCase (c :: rest) with
    | nil => simp [extendFirst]
    | cons word others =>
      rw [cut] at ih
      simp only [extendFirst, List.mem_cons, not_or] at ih ⊢
      exact ⟨(List.cons_ne_nil _ _).symm, ih.2⟩

theorem exists_of_mem_words (ascii : IsAscii text) {word : List Char} (member : word ∈ words text) :
    ∃ c rest, word = c :: rest ∧ Letter.isAscii c = true ∧ c.isUpper = false := by
  obtain ⟨cut, cuts, rfl⟩ := List.mem_map.1 member
  obtain ⟨piece, split, cuts⟩ := List.mem_flatMap.1 cuts
  cases cut with
  | nil => exact absurd cuts (nil_notMem_cutAtCase piece)
  | cons c rest =>
    have inPiece : c ∈ piece := by
      rw [← flatten_cutAtCase piece]
      exact List.mem_flatten.2 ⟨_, cuts, List.mem_cons_self⟩
    have single := ascii c (mem_splitOnP_iff.1 ⟨piece, split, inPiece⟩).1
    refine ⟨c.toLower, rest.flatMap Letter.lowered, ?_, isAscii_toLower single,
      Char.isUpper_toLower_eq_false c⟩
    rw [List.flatMap_cons, Letter.lowered, if_pos single]
    rfl

end Words

section Cases

theorem map_toLower_capitalized {word : List Char}
    (ascii : ∀ c ∈ word, Letter.isAscii c = true) :
    (capitalized word).map Char.toLower = word.map Char.toLower := by
  cases word with
  | nil => rfl
  | cons c rest =>
    have single : Letter.raised c = [c.toUpper] := by
      rw [Letter.raised, if_pos (ascii c List.mem_cons_self)]
    simp [capitalized, single]

theorem map_toLower_flatMap_capitalized {all : List (List Char)}
    (ascii : ∀ c ∈ all.flatten, Letter.isAscii c = true) :
    (all.flatMap capitalized).map Char.toLower = all.flatten.map Char.toLower := by
  induction all with
  | nil => rfl
  | cons word rest ih =>
    simp only [List.flatten_cons, List.mem_append] at ascii
    rw [List.flatMap_cons, List.map_append, List.flatten_cons, List.map_append,
      map_toLower_capitalized fun c member => ascii c (.inl member),
      ih fun c member => ascii c (.inr member)]

theorem map_toLower_flatten_words (ascii : IsAscii text) :
    (words text).flatten.map Char.toLower = (wordChars text).map Char.toLower := by
  rw [flatten_words ascii, List.map_map]
  exact List.map_congr_left fun c _ => Char.toLower_toLower_eq_toLower c

theorem ascii_words (ascii : IsAscii text) :
    ∀ c ∈ (words text).flatten, Letter.isAscii c = true := by
  rw [flatten_words ascii]
  exact isAscii_of_mem_map_toLower (ascii_wordChars ascii)

/-- A text in Pascal case has the characters of its words, up to their case. -/
theorem map_toLower_pascalCase (ascii : IsAscii text) :
    (pascalCase text).toList.map Char.toLower = (wordChars text).map Char.toLower := by
  rw [pascalCase, String.toList_ofList, map_toLower_flatMap_capitalized (ascii_words ascii),
    map_toLower_flatten_words ascii]

theorem map_toLower_camelCase (ascii : IsAscii text) :
    (camelCase text).toList.map Char.toLower = (wordChars text).map Char.toLower := by
  have each := ascii_words ascii
  rw [← map_toLower_flatten_words ascii]
  unfold camelCase
  split
  · next none => rw [none]; rfl
  · next word rest some =>
    rw [some, List.flatten_cons] at each ⊢
    rw [String.toList_ofList, List.map_append, List.map_append,
      map_toLower_flatMap_capitalized fun c member => each c (List.mem_append_right _ member)]

theorem isLower_head?_pascalCase (ascii : IsAscii text) :
    ∀ c ∈ (pascalCase text).toList.head?, c.isLower = false := by
  rw [pascalCase, String.toList_ofList]
  cases split : words text with
  | nil => simp
  | cons word others =>
    obtain ⟨c, rest, rfl, single, -⟩ := exists_of_mem_words ascii (split ▸ List.mem_cons_self)
    intro first
    simp only [List.flatMap_cons, capitalized, Letter.raised, single, if_true, List.cons_append,
      List.nil_append, List.head?_cons, Option.mem_some]
    rintro rfl
    exact Char.isLower_toUpper_eq_false c

theorem isUpper_head?_camelCase (ascii : IsAscii text) :
    ∀ c ∈ (camelCase text).toList.head?, c.isUpper = false := by
  unfold camelCase
  split
  · simp
  · next word others split =>
    obtain ⟨c, rest, rfl, -, small⟩ := exists_of_mem_words ascii (split ▸ List.mem_cons_self)
    intro first
    rw [String.toList_ofList, List.cons_append, List.head?_cons, Option.mem_some]
    rintro rfl
    exact small

end Cases

end TypeBridge.Text
