import Mathlib.Data.Char
import TypeBridge.Layout.Page
import TypeBridge.Script.Literal

/-!
# The texts of literals

Quoted literals are read back by undoing their escapes.  The text of a literal is told apart from
whatever follows it, as long as its keys have no colons and its expressions are truth values: a text
has at most one such literal in front.  Neither depends on how lines are indented.
-/

namespace TypeBridge

namespace Text

/-- The value of a hexadecimal digit. -/
def hexValue? (c : Char) : Option Nat :=
  if c.isDigit then some (c.toNat - 0x30)
  else if 'a' ≤ c ∧ c ≤ 'f' then some (c.toNat - 0x57)
  else if 'A' ≤ c ∧ c ≤ 'F' then some (c.toNat - 0x37)
  else none

/-- The character whose code has some hexadecimal digits. -/
def ofCode? (digits : List Char) : Option Char := do
  let values ← digits.mapM hexValue?
  let code := values.foldl (fun code value => code * 16 + value) 0
  if code.isValidChar then some (Char.ofNat code) else none

/-- What a backslash in front of a character stands for. -/
def shortEscape? : Char → Option Char
  | '"' => some '"'
  | '\\' => some '\\'
  | '/' => some '/'
  | 'b' => some '\x08'
  | 'f' => some '\x0c'
  | 'n' => some '\n'
  | 'r' => some '\r'
  | 't' => some '\t'
  | _ => none

/-- A further character in front of what was read. -/
def readFirst (c : Char) (read : List Char × List Char) : List Char × List Char :=
  (c :: read.1, read.2)

/-- What a quoted literal stands for, without its opening quote, and what follows its closing
quote.  A backslash stands in front of one character, or of `u` and the four digits of a code;
control characters are refused. -/
def readQuoted? : List Char → Option (List Char × List Char)
  | [] => none
  | '"' :: rest => some ([], rest)
  | '\\' :: 'u' :: a :: b :: c :: d :: rest =>
    (ofCode? [a, b, c, d]).bind fun char => (readQuoted? rest).map (readFirst char)
  | '\\' :: c :: rest => (shortEscape? c).bind fun char => (readQuoted? rest).map (readFirst char)
  | c :: rest =>
    if c = '\\' ∨ c.toNat < 0x20 then none else (readQuoted? rest).map (readFirst c)

/-- The content of a quoted literal. -/
def unquoted? (literal : String) : Option String :=
  match literal.toList with
  | '"' :: rest =>
    match readQuoted? rest with
    | some (content, []) => some (String.ofList content)
    | _ => none
  | _ => none

theorem hexValue?_hexDigit : ∀ value < 16, hexValue? (hexDigit value) = some value := by
  decide

theorem ofCode?_control {c : Char} (control : c.toNat < 0x20) :
    ofCode? ['0', '0', hexDigit (c.toNat / 16), hexDigit (c.toNat % 16)] = some c := by
  have zero : hexValue? '0' = some 0 := by decide
  have high := hexValue?_hexDigit (c.toNat / 16) (by omega)
  have low := hexValue?_hexDigit (c.toNat % 16) (by omega)
  have code : c.toNat / 16 * 16 + c.toNat % 16 = c.toNat := by omega
  have valid : c.toNat.isValidChar := .inl (by omega)
  simp [ofCode?, zero, high, low, code, valid]

/-- Escaping a character is undone. -/
theorem readQuoted?_escaped (c : Char) (text : List Char) :
    readQuoted? (escaped c ++ text) = (readQuoted? text).map (readFirst c) := by
  unfold escaped
  -- the characters with an escape of their own
  iterate 7
    split
    · next same => subst same; rfl
  split
  · next control =>
    rw [List.cons_append, List.cons_append, List.cons_append, List.cons_append, List.cons_append,
      List.cons_append, List.nil_append, readQuoted?, ofCode?_control control]
    rfl
  · next quote backslash _ _ _ _ _ control =>
    rw [List.singleton_append, readQuoted?.eq_5 _ _ ?_ ?_ ?_, if_neg (by simp [backslash, control])]
    · exact quote
    · intros; exact absurd ‹_› backslash
    · intros; exact absurd ‹_› backslash

theorem readQuoted?_flatMap (content rest : List Char) :
    readQuoted? (content.flatMap escaped ++ '"' :: rest) = some (content, rest) := by
  induction content with
  | nil => rfl
  | cons c content ih =>
    rw [List.flatMap_cons, List.append_assoc, readQuoted?_escaped, ih]
    rfl

theorem toList_quoted (text : String) :
    (quoted text).toList = '"' :: (text.toList.flatMap escaped ++ ['"']) := by
  rw [quoted, String.toList_ofList]
  rfl

theorem unquoted?_quoted (text : String) : unquoted? (quoted text) = some text := by
  have read := readQuoted?_flatMap text.toList []
  simp only [unquoted?, toList_quoted, read, String.ofList_toList]

/-- No quoted literal holds a line break. -/
theorem lineBreak_notMem_quoted (text : String) :
    '\n' ∉ (quoted text).toList ∧ '\r' ∉ (quoted text).toList := by
  rw [toList_quoted]
  constructor
  · simpa using fun c _ => (newline_notMem_escaped c).1
  · simpa using fun c _ => (newline_notMem_escaped c).2

/-- A quoted literal is told apart from what follows it. -/
theorem quoted_append_inj {text text' : String} {rest rest' : List Char}
    (same : (quoted text).toList ++ rest = (quoted text').toList ++ rest') :
    text = text' ∧ rest = rest' := by
  rw [toList_quoted, toList_quoted] at same
  simp only [List.cons_append, List.append_assoc, List.nil_append, List.cons.injEq, true_and]
    at same
  have read := congrArg readQuoted? same
  rw [readQuoted?_flatMap, readQuoted?_flatMap] at read
  obtain ⟨content, rest⟩ := Prod.mk.inj (Option.some.inj read)
  exact ⟨String.toList_inj.1 content, rest⟩

/-- A text is told apart from what follows the first occurrence of a character behind it. -/
theorem upTo_append_inj {c : Char} {text text' rest rest' : List Char} (outside : c ∉ text)
    (outside' : c ∉ text') (same : text ++ c :: rest = text' ++ c :: rest') :
    text = text' ∧ rest = rest' := by
  induction text generalizing text' with
  | nil =>
    cases text' with
    | nil => exact ⟨rfl, (List.cons.inj same).2⟩
    | cons first others => exact absurd ((List.cons.inj same).1 ▸ List.mem_cons_self) outside'
  | cons first others ih =>
    cases text' with
    | nil => exact absurd ((List.cons.inj same).1 ▸ List.mem_cons_self) outside
    | cons first' others' =>
      obtain ⟨rfl, further⟩ := List.cons.inj same
      obtain ⟨rfl, rfl⟩ := ih (List.not_mem_of_not_mem_cons outside)
        (List.not_mem_of_not_mem_cons outside') further
      exact ⟨rfl, rfl⟩

end Text

namespace Page

/-- A page with a text behind its own. -/
def append (page : Page) (text : String) : Page :=
  { page with text := page.text ++ text }

theorem append_append (page : Page) (text more : String) :
    (page.append text).append more = page.append (text ++ more) := by
  simp [append, String.append_assoc]

theorem line_eq (page : Page) (content : String) :
    page.line content = page.append (margin page.indent page.depth ++ content ++ "\n") := by
  simp [line, append, String.append_assoc]

theorem margin_succ (indent : Indent) (depth : Nat) :
    margin indent (depth + 1) = margin indent depth ++ indent.unit := by
  simp [margin, List.replicate_succ', String.join_append]

/-- One level of indentation begins with white space. -/
theorem exists_unit_eq (indent : Indent) :
    ∃ c rest, indent.unit.toList = c :: rest ∧ (c = ' ' ∨ c = '\t') := by
  unfold Indent.unit
  split <;> exact ⟨_, _, rfl, by decide⟩

end Page

namespace Script.Literal

open Page (margin)

mutual

/-- The text of a literal whose first line is indented to some depth, without the indentation of
that line. -/
def written (indent : Indent) (depth : Nat) : Literal → String
  | text content => Text.quoted content
  | raw code => code
  | object [] => "\x7b\x7d"
  | object (property :: others) =>
    "\x7b\n" ++ writtenProperties indent (depth + 1) (property :: others) ++
      margin indent depth ++ "\x7d"
  | array items =>
    match inline? items with
    | some content => content
    | none => "[\n" ++ writtenItems indent (depth + 1) items ++ margin indent depth ++ "]"

/-- The lines of some properties. -/
def writtenProperties (indent : Indent) (depth : Nat) : List (String × Literal) → String
  | [] => ""
  | (key, value) :: others =>
    margin indent depth ++ key ++ ": " ++ value.written indent depth ++ ",\n" ++
      writtenProperties indent depth others

/-- The lines of some array items. -/
def writtenItems (indent : Indent) (depth : Nat) : List Literal → String
  | [] => ""
  | item :: others =>
    margin indent depth ++ item.written indent depth ++ ",\n" ++ writtenItems indent depth others

end

section Characters

variable (indent : Indent) (depth : Nat)

theorem toList_written_object (property : String × Literal) (others : List (String × Literal)) :
    ((object (property :: others)).written indent depth).toList =
      '\x7b' :: '\n' :: ((writtenProperties indent (depth + 1) (property :: others)).toList ++
        ((margin indent depth).toList ++ ['\x7d'])) := by
  simp [written]

theorem toList_written_block {items : List Literal} (inlined : inline? items = none) :
    ((array items).written indent depth).toList =
      '[' :: '\n' :: ((writtenItems indent (depth + 1) items).toList ++
        ((margin indent depth).toList ++ [']'])) := by
  simp [written, inlined]

theorem toList_writtenProperties_cons (key : String) (value : Literal)
    (others : List (String × Literal)) :
    (writtenProperties indent depth ((key, value) :: others)).toList =
      (margin indent depth).toList ++ (key.toList ++ ':' :: ' ' ::
        ((value.written indent depth).toList ++ ',' :: '\n' ::
          (writtenProperties indent depth others).toList)) := by
  simp [writtenProperties]

theorem toList_writtenItems_cons (item : Literal) (others : List Literal) :
    (writtenItems indent depth (item :: others)).toList =
      (margin indent depth).toList ++ ((item.written indent depth).toList ++ ',' :: '\n' ::
        (writtenItems indent depth others).toList) := by
  simp [writtenItems]

end Characters

mutual

/-- A literal is written between what stands in front of it and behind it. -/
theorem write_fragment (page : Page) (front back : String) : ∀ literal : Literal,
    page.write (literal.fragment front back) =
      page.append (margin page.indent page.depth ++ front ++
        literal.written page.indent page.depth ++ back ++ "\n")
  | text content => by simp [fragment, Page.write, Page.line_eq, written, String.append_assoc]
  | raw code => by simp [fragment, Page.write, Page.line_eq, written, String.append_assoc]
  | object [] => by simp [fragment, Page.write, Page.line_eq, written, String.append_assoc]
  | object (property :: others) => by
    rw [fragment, Page.write, writeAll_propertyFragments _ (property :: others), written]
    simp [Page.line?, Page.line_eq, Page.append, Page.deeper, Page.shallower, String.append_assoc]
  | array items => by
    rw [fragment, written]
    cases inlined : inline? items with
    | some content => simp [Page.write, Page.line_eq, String.append_assoc]
    | none =>
      simp [Page.write, writeAll_itemFragments _ items, Page.line?, Page.line_eq, Page.append,
        Page.deeper, Page.shallower, String.append_assoc]

theorem writeAll_propertyFragments (page : Page) : ∀ properties : List (String × Literal),
    page.writeAll (propertyFragments properties) =
      page.append (writtenProperties page.indent page.depth properties)
  | [] => by simp [propertyFragments, Page.writeAll, writtenProperties, Page.append]
  | (key, value) :: others => by
    rw [propertyFragments, Page.writeAll, write_fragment page _ _ value,
      writeAll_propertyFragments _ others, Page.append_append]
    simp [writtenProperties, Page.append, String.append_assoc]

theorem writeAll_itemFragments (page : Page) : ∀ items : List Literal,
    page.writeAll (itemFragments items) = page.append (writtenItems page.indent page.depth items)
  | [] => by simp [itemFragments, Page.writeAll, writtenItems, Page.append]
  | item :: others => by
    rw [itemFragments, Page.writeAll, write_fragment page _ _ item,
      writeAll_itemFragments _ others, Page.append_append]
    simp [writtenItems, Page.append, String.append_assoc]

end

mutual

/-- Every key is without colons, and every expression is a truth value. -/
def IsPlain : Literal → Prop
  | text _ => True
  | raw code => code = "true" ∨ code = "false"
  | object properties => ArePlainProperties properties
  | array items => ArePlain items

def ArePlainProperties : List (String × Literal) → Prop
  | [] => True
  | (key, value) :: others => ':' ∉ key.toList ∧ value.IsPlain ∧ ArePlainProperties others

def ArePlain : List Literal → Prop
  | [] => True
  | item :: others => item.IsPlain ∧ ArePlain others

end

section Unambiguous

variable {indent : Indent} {depth : Nat} {rest rest' : List Char}

/-- Where the lines inside of brackets end, they are indented less. -/
theorem deeper_ne_closing {c : Char} (closes : c = '\x7d' ∨ c = ']') :
    (margin indent (depth + 1)).toList ++ rest ≠ (margin indent depth).toList ++ c :: rest' := by
  obtain ⟨first, others, unit, white⟩ := Page.exists_unit_eq indent
  rw [Page.margin_succ, String.toList_append, List.append_assoc, unit]
  intro same
  obtain ⟨rfl, -⟩ := List.cons.inj (List.append_cancel_left same)
  rcases closes with rfl | rfl <;> rcases white with white | white <;> cases white

theorem scalar_append_inj {first second : Literal} {content content' : String}
    (plain : first.IsPlain) (plain' : second.IsPlain) (scalar : scalar? first = some content)
    (scalar' : scalar? second = some content')
    (same : content.toList ++ rest = content'.toList ++ rest') : first = second ∧ rest = rest' := by
  -- a quotation mark begins no truth value
  have clash : ∀ {text code : String} {rest rest' : List Char}, code = "true" ∨ code = "false" →
      (Text.quoted text).toList ++ rest ≠ code.toList ++ rest' := by
    rintro text code rest rest' (rfl | rfl) <;> simp [Text.toList_quoted]
  cases first with
  | object | array => cases scalar
  | text content =>
    cases scalar
    cases second with
    | object | array => cases scalar'
    | text content' =>
      cases scalar'
      obtain ⟨rfl, rfl⟩ := Text.quoted_append_inj same
      exact ⟨rfl, rfl⟩
    | raw code' =>
      cases scalar'
      exact absurd same (clash plain')
  | raw code =>
    cases scalar
    cases second with
    | object | array => cases scalar'
    | text content' =>
      cases scalar'
      exact absurd same.symm (clash plain)
    | raw code' =>
      cases scalar'
      rcases plain with rfl | rfl <;> rcases plain' with rfl | rfl <;> simp at same
      · exact ⟨rfl, same⟩
      · exact ⟨rfl, same⟩

theorem mapM_scalar?_cons_eq_some {item : Literal} {items : List Literal} {texts : List String} :
    (item :: items).mapM scalar? = some texts ↔
      ∃ text others, scalar? item = some text ∧ items.mapM scalar? = some others ∧
        text :: others = texts := by
  rw [List.mapM_cons]
  simp [Option.bind_eq_some_iff]

/-- The array items behind the first one, each behind a comma. -/
def further (texts : List String) : List Char :=
  texts.flatMap fun text => ',' :: ' ' :: text.toList

theorem toList_intercalate_cons (text : String) (texts : List String) :
    (", ".intercalate (text :: texts)).toList = text.toList ++ further texts := by
  induction texts generalizing text with
  | nil => simp [further]
  | cons next texts ih =>
    rw [String.intercalate_cons_cons, String.toList_append, ih]
    simp [further]

theorem further_append_inj {items items' : List Literal} {texts texts' : List String}
    (plain : ArePlain items) (plain' : ArePlain items') (scalars : items.mapM scalar? = some texts)
    (scalars' : items'.mapM scalar? = some texts')
    (same : further texts ++ ']' :: rest = further texts' ++ ']' :: rest') :
    items = items' ∧ rest = rest' := by
  induction items generalizing items' texts texts' with
  | nil =>
    cases scalars
    cases items' with
    | nil =>
      cases scalars'
      exact ⟨rfl, (List.cons.inj same).2⟩
    | cons item' items' =>
      obtain ⟨text', others', -, -, rfl⟩ := mapM_scalar?_cons_eq_some.1 scalars'
      cases same
  | cons item items ih =>
    obtain ⟨text, others, scalar, inside, rfl⟩ := mapM_scalar?_cons_eq_some.1 scalars
    cases items' with
    | nil =>
      cases scalars'
      cases same
    | cons item' items' =>
      obtain ⟨text', others', scalar', inside', rfl⟩ := mapM_scalar?_cons_eq_some.1 scalars'
      simp only [further, List.flatMap_cons, List.cons_append, List.append_assoc, List.cons.injEq,
        true_and] at same
      obtain ⟨rfl, same⟩ := scalar_append_inj plain.1 plain'.1 scalar scalar' same
      obtain ⟨rfl, rfl⟩ := ih plain.2 plain'.2 inside inside' same
      exact ⟨rfl, rfl⟩

/-- No text of an array item begins with a closing bracket or a line break. -/
theorem scalar_ne {item : Literal} {content : String} {c : Char} (plain : item.IsPlain)
    (scalar : scalar? item = some content) (outside : c = ']' ∨ c = '\n') :
    content.toList ++ rest ≠ c :: rest' := by
  cases item with
  | object | array => cases scalar
  | text text =>
    cases scalar
    rcases outside with rfl | rfl <;> simp [Text.toList_quoted]
  | raw code =>
    cases scalar
    rcases plain with rfl | rfl <;> rcases outside with rfl | rfl <;> simp

/-- The text of an array on one line: nothing in brackets, or items parted by commas. -/
theorem inline_cases {items : List Literal} {content : String}
    (inlined : inline? items = some content) :
    (items = [] ∧ content.toList = ['[', ']']) ∨
      ∃ item others text texts, items = item :: others ∧ scalar? item = some text ∧
        others.mapM scalar? = some texts ∧
        content.toList = '[' :: (text.toList ++ (further texts ++ [']'])) := by
  obtain ⟨texts, scalars, rfl⟩ := Option.map_eq_some_iff.1 inlined
  cases items with
  | nil =>
    cases scalars
    exact .inl ⟨rfl, rfl⟩
  | cons item others =>
    obtain ⟨text, texts, scalar, inside, rfl⟩ := mapM_scalar?_cons_eq_some.1 scalars
    refine .inr ⟨item, others, text, texts, rfl, scalar, inside, ?_⟩
    rw [String.toList_append, String.toList_append, toList_intercalate_cons, List.append_assoc,
      List.append_assoc]
    rfl

theorem inline_append_inj {items items' : List Literal} {content content' : String}
    (plain : ArePlain items) (plain' : ArePlain items') (inlined : inline? items = some content)
    (inlined' : inline? items' = some content')
    (same : content.toList ++ rest = content'.toList ++ rest') : items = items' ∧ rest = rest' := by
  rcases inline_cases inlined with
    ⟨rfl, spelled⟩ | ⟨item, others, text, texts, rfl, scalar, inside, spelled⟩ <;>
  rcases inline_cases inlined' with
    ⟨rfl, spelled'⟩ | ⟨item', others', text', texts', rfl, scalar', inside', spelled'⟩ <;>
  rw [spelled, spelled'] at same <;>
  simp only [List.cons_append, List.append_assoc, List.nil_append, List.cons.injEq, true_and]
    at same
  · exact ⟨rfl, same⟩
  · exact absurd same.symm (scalar_ne plain'.1 scalar' (.inl rfl))
  · exact absurd same (scalar_ne plain.1 scalar (.inl rfl))
  · obtain ⟨rfl, same⟩ := scalar_append_inj plain.1 plain'.1 scalar scalar' same
    obtain ⟨rfl, rfl⟩ := further_append_inj plain.2 plain'.2 inside inside' same
    exact ⟨rfl, rfl⟩

/-- An array on one line is told apart from one on several lines. -/
theorem inline_ne_block {items : List Literal} {content : String} (plain : ArePlain items)
    (inlined : inline? items = some content) : content.toList ++ rest ≠ '[' :: '\n' :: rest' := by
  intro same
  rcases inline_cases inlined with
    ⟨rfl, spelled⟩ | ⟨item, others, text, texts, rfl, scalar, -, spelled⟩
  · rw [spelled] at same
    cases same
  · rw [spelled, List.cons_append, List.append_assoc] at same
    exact scalar_ne plain.1 scalar (.inr rfl) (List.cons.inj same).2

/-- The character that a literal begins with. -/
def lead : Literal → Char
  | text _ => '"'
  | raw code => code.toList.headD '"'
  | object _ => '\x7b'
  | array _ => '['

theorem exists_written_eq {literal : Literal} (plain : literal.IsPlain) :
    ∃ others, (literal.written indent depth).toList = literal.lead :: others := by
  cases literal with
  | text content => exact ⟨_, Text.toList_quoted content⟩
  | raw code =>
    rw [written]
    rcases plain with rfl | rfl <;> exact ⟨_, rfl⟩
  | object properties =>
    cases properties with
    | nil => exact ⟨_, by rw [written]; rfl⟩
    | cons property others => exact ⟨_, toList_written_object indent depth property others⟩
  | array items =>
    cases inlined : inline? items with
    | none => exact ⟨_, toList_written_block indent depth inlined⟩
    | some content =>
      rw [written, inlined]
      rcases inline_cases inlined with ⟨-, spelled⟩ | ⟨item, others, text, texts, -, -, -, spelled⟩
      · exact ⟨_, spelled⟩
      · exact ⟨_, spelled⟩

theorem lead_eq {first second : Literal} (plain : first.IsPlain) (plain' : second.IsPlain)
    (same : (first.written indent depth).toList ++ rest =
      (second.written indent depth).toList ++ rest') : first.lead = second.lead := by
  obtain ⟨others, spelled⟩ :
      ∃ others, (first.written indent depth).toList = first.lead :: others :=
    exists_written_eq plain
  obtain ⟨others', spelled'⟩ :
      ∃ others, (second.written indent depth).toList = second.lead :: others :=
    exists_written_eq plain'
  rw [spelled, spelled'] at same
  exact (List.cons.inj same).1

mutual

/-- A literal is told apart from what follows it. -/
theorem written_append_inj {depth : Nat} {rest rest' : List Char} : ∀ first second : Literal,
    first.IsPlain → second.IsPlain →
    (first.written indent depth).toList ++ rest = (second.written indent depth).toList ++ rest' →
      first = second ∧ rest = rest'
  | text content => by
    intro second plain plain' same
    have lead := lead_eq plain plain' same
    cases second with
    | text content' =>
      rw [written, written] at same
      exact scalar_append_inj plain plain' rfl rfl same
    | raw code' => rcases plain' with rfl | rfl <;> cases lead
    | object | array => cases lead
  | raw code => by
    intro second plain plain' same
    have lead := lead_eq plain plain' same
    cases second with
    | text content' => rcases plain with rfl | rfl <;> cases lead
    | raw code' =>
      rw [written, written] at same
      exact scalar_append_inj plain plain' rfl rfl same
    | object | array => rcases plain with rfl | rfl <;> cases lead
  | object [] => by
    intro second plain plain' same
    have lead := lead_eq plain plain' same
    cases second with
    | text | array => cases lead
    | raw code' => rcases plain' with rfl | rfl <;> cases lead
    | object properties' =>
      cases properties' with
      | nil => exact ⟨rfl, List.append_cancel_left same⟩
      | cons property' others' =>
        rw [toList_written_object, written] at same
        cases same
  | object (property :: others) => by
    intro second plain plain' same
    have lead := lead_eq plain plain' same
    cases second with
    | text | array => cases lead
    | raw code' => rcases plain' with rfl | rfl <;> cases lead
    | object properties' =>
      cases properties' with
      | nil =>
        rw [toList_written_object, written] at same
        cases same
      | cons property' others' =>
        rw [toList_written_object, toList_written_object] at same
        simp only [List.cons_append, List.append_assoc, List.nil_append, List.cons.injEq,
          true_and] at same
        obtain ⟨equal, rfl⟩ := writtenProperties_append_inj _ _ plain plain' same
        exact ⟨congrArg object equal, rfl⟩
  | array items => by
    intro second plain plain' same
    have lead := lead_eq plain plain' same
    cases second with
    | text | object => cases lead
    | raw code' => rcases plain' with rfl | rfl <;> cases lead
    | array items' =>
      cases inlined : inline? items with
      | some content =>
        cases inlined' : inline? items' with
        | some content' =>
          rw [written, written, inlined, inlined'] at same
          obtain ⟨rfl, rfl⟩ := inline_append_inj plain plain' inlined inlined' same
          exact ⟨rfl, rfl⟩
        | none =>
          rw [toList_written_block indent depth inlined', written, inlined] at same
          exact absurd same (inline_ne_block plain inlined)
      | none =>
        cases inlined' : inline? items' with
        | some content' =>
          rw [toList_written_block indent depth inlined, written, inlined'] at same
          exact absurd same.symm (inline_ne_block plain' inlined')
        | none =>
          rw [toList_written_block indent depth inlined,
            toList_written_block indent depth inlined'] at same
          simp only [List.cons_append, List.append_assoc, List.nil_append, List.cons.injEq,
            true_and] at same
          obtain ⟨rfl, rfl⟩ := writtenItems_append_inj _ _ plain plain' same
          exact ⟨rfl, rfl⟩

theorem writtenProperties_append_inj {depth : Nat} {rest rest' : List Char} :
    ∀ first second : List (String × Literal), ArePlainProperties first → ArePlainProperties second →
    (writtenProperties indent (depth + 1) first).toList ++
        ((margin indent depth).toList ++ '\x7d' :: rest) =
      (writtenProperties indent (depth + 1) second).toList ++
        ((margin indent depth).toList ++ '\x7d' :: rest') →
      first = second ∧ rest = rest'
  | [] => by
    intro second plain plain' same
    cases second with
    | nil =>
      simp only [List.append_cancel_left_eq, List.cons.injEq, true_and] at same
      exact ⟨rfl, same⟩
    | cons property' others' =>
      rw [toList_writtenProperties_cons, List.append_assoc] at same
      exact absurd same.symm (deeper_ne_closing (.inl rfl))
  | (key, value) :: others => by
    intro second plain plain' same
    cases second with
    | nil =>
      rw [toList_writtenProperties_cons, List.append_assoc] at same
      exact absurd same (deeper_ne_closing (.inl rfl))
    | cons property' others' =>
      obtain ⟨key', value'⟩ := property'
      simp only [toList_writtenProperties_cons, List.append_assoc, List.cons_append] at same
      obtain ⟨equal, valued⟩ :=
        Text.upTo_append_inj plain.1 plain'.1 (List.append_cancel_left same)
      obtain ⟨rfl, further⟩ :=
        written_append_inj _ _ plain.2.1 plain'.2.1 (List.cons.inj valued).2
      simp only [List.cons.injEq, true_and] at further
      obtain ⟨rfl, rfl⟩ := writtenProperties_append_inj _ _ plain.2.2 plain'.2.2 further
      exact ⟨congrArg (fun key => (key, value) :: others) (String.toList_inj.1 equal), rfl⟩

theorem writtenItems_append_inj {depth : Nat} {rest rest' : List Char} :
    ∀ first second : List Literal, ArePlain first → ArePlain second →
    (writtenItems indent (depth + 1) first).toList ++
        ((margin indent depth).toList ++ ']' :: rest) =
      (writtenItems indent (depth + 1) second).toList ++
        ((margin indent depth).toList ++ ']' :: rest') →
      first = second ∧ rest = rest'
  | [] => by
    intro second plain plain' same
    cases second with
    | nil =>
      simp only [List.append_cancel_left_eq, List.cons.injEq, true_and] at same
      exact ⟨rfl, same⟩
    | cons item' others' =>
      rw [toList_writtenItems_cons, List.append_assoc] at same
      exact absurd same.symm (deeper_ne_closing (.inr rfl))
  | item :: others => by
    intro second plain plain' same
    cases second with
    | nil =>
      rw [toList_writtenItems_cons, List.append_assoc] at same
      exact absurd same (deeper_ne_closing (.inr rfl))
    | cons item' others' =>
      simp only [toList_writtenItems_cons, List.append_assoc, List.cons_append] at same
      obtain ⟨rfl, further⟩ :=
        written_append_inj _ _ plain.1 plain'.1 (List.append_cancel_left same)
      simp only [List.cons.injEq, true_and] at further
      obtain ⟨rfl, rfl⟩ := writtenItems_append_inj _ _ plain.2 plain'.2 further
      exact ⟨rfl, rfl⟩

end

end Unambiguous

end Script.Literal

end TypeBridge
