import Mathlib.Data.List.Basic
import TypeBridge.Proofs.LiteralTexts
import TypeBridge.Script.TypeText

/-!
# Texts in brackets

Which brackets are open at each place of a text.  Texts that close their own brackets, and that have
no comma outside of them, are told apart when they stand next to each other with commas in between.
-/

namespace TypeBridge

namespace Text

/-- The characters that types are put together with. -/
def marks : List Char :=
  ['<', '>', '(', ')', '[', ']', ',', ' ']

/-- A text without marks. -/
def IsWord (text : List Char) : Prop :=
  ∀ c ∈ text, c ∉ marks

instance (text : List Char) : Decidable (IsWord text) :=
  List.decidableBAll (fun c => c ∉ marks) text

/-- How many brackets are open behind a text, if some are open in front of it.  A text may not close
more brackets than are open, and may have no comma where none is. -/
def depthAfter? : Nat → List Char → Option Nat
  | depth, [] => some depth
  | depth, c :: rest =>
    if c = '<' ∨ c = '(' then depthAfter? (depth + 1) rest
    else if c = '>' ∨ c = ')' then
      match depth with
      | 0 => none
      | outer + 1 => depthAfter? outer rest
    else if c = ',' ∧ depth = 0 then none
    else depthAfter? depth rest

/-- A text that closes the brackets that it opens, and has all its commas inside of them. -/
def Enclosed (text : List Char) : Prop :=
  ∀ depth, depthAfter? depth text = some depth

/-- A text that closes the brackets that it opens, when it stands in brackets itself. -/
def Inside (text : List Char) : Prop :=
  ∀ depth, depthAfter? (depth + 1) text = some (depth + 1)

theorem depthAfter?_append (depth : Nat) (front back : List Char) :
    depthAfter? depth (front ++ back) = (depthAfter? depth front).bind (depthAfter? · back) := by
  fun_induction depthAfter? depth front <;> simp_all [depthAfter?]

section Enclosed

variable {front back text : List Char}

theorem Enclosed.append (first : Enclosed front) (second : Enclosed back) :
    Enclosed (front ++ back) := fun depth => by
  rw [depthAfter?_append, first, Option.bind_some, second]

theorem Enclosed.inside (enclosed : Enclosed text) : Inside text :=
  fun depth => enclosed (depth + 1)

theorem Inside.append (first : Inside front) (second : Inside back) : Inside (front ++ back) :=
  fun depth => by rw [depthAfter?_append, first, Option.bind_some, second]

theorem IsWord.enclosed (word : IsWord text) : Enclosed text := fun depth => by
  induction text with
  | nil => rfl
  | cons c rest ih =>
    obtain ⟨first, others⟩ := List.forall_mem_cons.1 word
    simp only [marks, List.mem_cons, List.not_mem_nil, or_false, not_or] at first
    simp [depthAfter?, first, ih others]

/-- Brackets enclose what stands inside of them. -/
theorem Inside.bracketed {opening closing : Char} (opens : opening = '<' ∨ opening = '(')
    (closes : closing = '>' ∨ closing = ')') (inside : Inside text) :
    Enclosed (opening :: (text ++ [closing])) := fun depth => by
  have opened : depthAfter? depth (opening :: (text ++ [closing])) =
      depthAfter? (depth + 1) (text ++ [closing]) := by
    simp [depthAfter?, opens]
  have closed : depthAfter? (depth + 1) [closing] = some depth := by
    rcases closes with rfl | rfl <;> simp [depthAfter?]
  rw [opened, depthAfter?_append, inside, Option.bind_some, closed]

end Enclosed

/-- Texts with commas in between. -/
def listed (texts : List (List Char)) : List Char :=
  [',', ' '].intercalate texts

theorem listed_cons_cons (first second : List Char) (rest : List (List Char)) :
    listed (first :: second :: rest) = first ++ ',' :: ' ' :: listed (second :: rest) := by
  rw [listed, List.intercalate_cons_cons, List.append_assoc]
  rfl

theorem inside_listed {texts : List (List Char)} (enclosed : ∀ text ∈ texts, Enclosed text) :
    Inside (listed texts) := by
  induction texts with
  | nil => exact fun _ => rfl
  | cons first texts ih =>
    obtain ⟨head, others⟩ := List.forall_mem_cons.1 enclosed
    cases texts with
    | nil => simpa [listed] using head.inside
    | cons second texts =>
      have comma : Inside [',', ' '] := fun depth => by simp [depthAfter?]
      rw [listed_cons_cons]
      exact head.inside.append (comma.append (ih others))

/-- An enclosed text is followed by no comma inside of another. -/
theorem Enclosed.append_comma_ne {text other rest : List Char} (enclosed : Enclosed text)
    (enclosed' : Enclosed other) : text ++ ',' :: rest ≠ other := by
  intro same
  have depth := enclosed' 0
  rw [← same, depthAfter?_append, enclosed] at depth
  simp [depthAfter?] at depth

theorem Enclosed.append_comma_inj {text text' rest rest' : List Char} (enclosed : Enclosed text)
    (enclosed' : Enclosed text') (same : text ++ ',' :: rest = text' ++ ',' :: rest') :
    text = text' ∧ rest = rest' := by
  rcases List.append_eq_append_iff.1 same with ⟨more, longer, split⟩ | ⟨more, longer, split⟩
  · cases more with
    | nil => exact ⟨by simpa using longer.symm, by simpa using split⟩
    | cons c more =>
      obtain ⟨rfl, -⟩ := List.cons.inj split
      exact absurd longer.symm (enclosed.append_comma_ne enclosed')
  · cases more with
    | nil => exact ⟨by simpa using longer, by simpa using split.symm⟩
    | cons c more =>
      obtain ⟨rfl, -⟩ := List.cons.inj split
      exact absurd longer.symm (enclosed'.append_comma_ne enclosed)

/-- Enclosed texts with commas in between are told apart. -/
theorem listed_inj {first second : List Char} {texts texts' : List (List Char)}
    (enclosed : ∀ text ∈ first :: texts, Enclosed text)
    (enclosed' : ∀ text ∈ second :: texts', Enclosed text)
    (same : listed (first :: texts) = listed (second :: texts')) :
    first :: texts = second :: texts' := by
  induction texts generalizing first second texts' with
  | nil =>
    cases texts' with
    | nil => simpa [listed] using same
    | cons next' texts' =>
      rw [listed_cons_cons] at same
      have alone : listed [first] = first := by simp [listed]
      exact absurd (same.symm.trans alone)
        (Enclosed.append_comma_ne (enclosed' _ List.mem_cons_self) (enclosed _ List.mem_cons_self))
  | cons next texts ih =>
    cases texts' with
    | nil =>
      rw [listed_cons_cons] at same
      have alone : listed [second] = second := by simp [listed]
      exact absurd (same.trans alone)
        (Enclosed.append_comma_ne (enclosed _ List.mem_cons_self) (enclosed' _ List.mem_cons_self))
    | cons next' texts' =>
      rw [listed_cons_cons, listed_cons_cons] at same
      obtain ⟨head, others⟩ := List.forall_mem_cons.1 enclosed
      obtain ⟨head', others'⟩ := List.forall_mem_cons.1 enclosed'
      obtain ⟨rfl, rest⟩ := head.append_comma_inj head' same
      rw [ih others others' (List.cons.inj rest).2]

end Text

namespace Script

theorem occursIn_iff {word text : List Char} : occursIn word text = true ↔ word <:+: text := by
  induction text with
  | nil => simp [occursIn]
  | cons c rest ih =>
    rw [occursIn, Bool.or_eq_true, List.isPrefixOf_iff_prefix, ih, List.infix_cons_iff]

/-- The text of an array determines the text of its elements. -/
theorem arrayOf_inj {first second : String} : arrayOf first = arrayOf second ↔ first = second := by
  refine ⟨fun same => ?_, congrArg arrayOf⟩
  -- what is put in parentheses is a union with the parentheses too, so it is no other element
  have clash : ∀ {inner outer : String}, occursIn " | ".toList inner.toList = true →
      ¬ occursIn " | ".toList outer.toList = true → "(" ++ inner ++ ")[]" ≠ outer ++ "[]" := by
    intro inner outer union plain equal
    have whole : "(" ++ inner ++ ")" = outer := by
      rw [← String.append_left_inj "[]", ← equal, String.append_assoc]
      rfl
    refine plain (occursIn_iff.2 ((occursIn_iff.1 union).trans ?_))
    rw [← whole, String.toList_append, String.toList_append]
    exact ⟨_, _, rfl⟩
  unfold arrayOf at same
  split at same <;> split at same
  · next union union' => simpa using same
  · next union plain => exact absurd same (clash union plain)
  · next plain union => exact absurd same.symm (clash union plain)
  · next plain plain' => simpa using same

theorem toList_angled_cons (arg : String) (args : List String) :
    (angled (arg :: args)).toList =
      '<' :: (Text.listed ((arg :: args).map String.toList) ++ ['>']) := by
  simp [angled, Text.listed, String.toList_intercalate]

/-- A name and its arguments are told apart. -/
theorem append_angled_inj {head head' arg arg' : String} {args args' : List String}
    (word : '<' ∉ head.toList) (word' : '<' ∉ head'.toList)
    (enclosed : ∀ text ∈ arg :: args, Text.Enclosed text.toList)
    (enclosed' : ∀ text ∈ arg' :: args', Text.Enclosed text.toList)
    (same : head ++ angled (arg :: args) = head' ++ angled (arg' :: args')) :
    head = head' ∧ arg :: args = arg' :: args' := by
  have chars := congrArg String.toList same
  rw [String.toList_append, String.toList_append, toList_angled_cons, toList_angled_cons] at chars
  obtain ⟨heads, rest⟩ := Text.upTo_append_inj word word' chars
  have texts := Text.listed_inj (List.forall_mem_map.2 enclosed) (List.forall_mem_map.2 enclosed')
    (List.append_cancel_right rest)
  exact ⟨String.toList_inj.1 heads, (List.map_inj_right fun _ _ => String.toList_inj.1).1 texts⟩

end Script

end TypeBridge
