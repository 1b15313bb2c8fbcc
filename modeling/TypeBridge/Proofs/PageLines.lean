import Mathlib.Algebra.Order.Ring.Nat
import TypeBridge.Proofs.CommentTexts

/-!
# The lines of a page

A tree of fragments is a list of lines, each with its depth in the tree, and a page writes these
lines one below the other behind the indentation of their depth.  A width of two, four or eight
spaces is written as it is asked for.  Every other width is written as four spaces, which shows
exactly in a tree with a line below its first level.
-/

namespace TypeBridge

/-- A line of a page: nothing at all, or a content at some depth. -/
inductive PageLine where
  | blank
  | written (depth : Nat) (content : String)

namespace PageLine

/-- The depth of a line.  A blank line is never indented. -/
def depth : PageLine → Nat
  | blank => 0
  | written depth _ => depth

/-- A line as it is written, when each depth has some margin. -/
def text (margin : Nat → String) : PageLine → String
  | blank => "\n"
  | written depth content => margin depth ++ content ++ "\n"

/-- Lines one below the other. -/
def textOfAll (margin : Nat → String) (lines : List PageLine) : String :=
  String.join (lines.map (text margin))

theorem textOfAll_append (margin : Nat → String) (front back : List PageLine) :
    textOfAll margin (front ++ back) = textOfAll margin front ++ textOfAll margin back := by
  simp [textOfAll, String.join_append]

end PageLine

namespace Fragment

open PageLine (written)

mutual

/-- The lines of a fragment at some depth. -/
def lines (depth : Nat) : Fragment → List PageLine
  | .line content => [written depth content]
  | .blank => [.blank]
  | .block header body close =>
    written depth header :: (linesOfAll (depth + 1) body ++ (close.map (written depth)).toList)
  | .indented body => linesOfAll (depth + 1) body
  | .comment text => (Page.commentLines text).map (written depth)

def linesOfAll (depth : Nat) : List Fragment → List PageLine
  | [] => []
  | fragment :: rest => lines depth fragment ++ linesOfAll depth rest

end

theorem linesOfAll_append (depth : Nat) (front back : List Fragment) :
    linesOfAll depth (front ++ back) = linesOfAll depth front ++ linesOfAll depth back := by
  induction front with
  | nil => rfl
  | cons fragment rest ih =>
    rw [List.cons_append, linesOfAll, linesOfAll, ih, List.append_assoc]

end Fragment

namespace Page

open PageLine (textOfAll textOfAll_append)

mutual

theorem write_eq_lines (page : Page) : ∀ fragment : Fragment,
    page.write fragment =
      page.append (textOfAll (margin page.indent) (fragment.lines page.depth))
  | .line content => by simp [write, line_eq, Fragment.lines, textOfAll, PageLine.text]
  | .blank => by simp [write, blank, append, Fragment.lines, textOfAll, PageLine.text]
  | .block header body close => by
    rw [write, writeAll_eq_lines _ body, Fragment.lines]
    cases close <;>
      simp [line?, line_eq, append, deeper, shallower, textOfAll, PageLine.text,
        String.append_assoc]
  | .indented body => by
    rw [write, writeAll_eq_lines _ body, Fragment.lines]
    simp [append, deeper, shallower]
  | .comment text => by
    rw [write, comment_eq, commentText, Fragment.lines, textOfAll, List.map_map]
    rfl

/-- Fragments are written line by line, behind what is there. -/
theorem writeAll_eq_lines (page : Page) : ∀ fragments : List Fragment,
    page.writeAll fragments =
      page.append (textOfAll (margin page.indent) (Fragment.linesOfAll page.depth fragments))
  | [] => by simp [writeAll, Fragment.linesOfAll, textOfAll, append]
  | fragment :: rest => by
    rw [writeAll, write_eq_lines page fragment, writeAll_eq_lines _ rest, Fragment.linesOfAll,
      textOfAll_append, append_append]
    rfl

end

theorem render_eq_lines (indent : Indent) (fragments : List Fragment) :
    render indent fragments = textOfAll (margin indent) (Fragment.linesOfAll 0 fragments) := by
  rw [render, writeAll_eq_lines]
  simp [append, empty]

end Page

/-- So many spaces. -/
def spaces (count : Nat) : String :=
  String.ofList (List.replicate count ' ')

/-- The width that a level of indentation is written with. -/
def writtenWidth (width : Nat) : Nat :=
  if width = 2 ∨ width = 8 then width else 4

theorem writtenWidth_eq_self_iff {width : Nat} :
    writtenWidth width = width ↔ width = 2 ∨ width = 4 ∨ width = 8 := by
  unfold writtenWidth
  split <;> omega

theorem unit_spaces (width : Nat) : (Indent.spaces width).unit = spaces (writtenWidth width) := by
  by_cases two : width = 2
  · rw [two]
    rfl
  · by_cases eight : width = 8
    · rw [eight]
      rfl
    · rw [writtenWidth, if_neg (not_or.2 ⟨two, eight⟩)]
      unfold Indent.unit
      split
      · next same => exact absurd (Indent.spaces.inj same) two
      · next same => exact absurd (Indent.spaces.inj same) eight
      · rfl
      · next same => cases same

theorem spaces_append_spaces (front back : Nat) :
    spaces front ++ spaces back = spaces (front + back) := by
  rw [spaces, spaces, spaces, ← String.ofList_append, List.replicate_append_replicate]

theorem margin_spaces (width depth : Nat) :
    Page.margin (.spaces width) depth = spaces (depth * writtenWidth width) := by
  induction depth with
  | zero => simp [Page.margin, spaces]
  | succ depth ih =>
    rw [Page.margin_succ, ih, unit_spaces, spaces_append_spaces, Nat.succ_mul]

namespace PageLine

/-- A line has its depth times the width of spaces, and as many characters more in any width. -/
theorem length_text (width : Nat) (line : PageLine) :
    (line.text fun depth => spaces (depth * width)).length =
      (line.text fun _ => "").length + line.depth * width := by
  cases line with
  | blank => simp [text, depth]
  | written depth content =>
    simp [text, PageLine.depth, spaces]
    omega

theorem length_textOfAll (width : Nat) (lines : List PageLine) :
    (textOfAll (fun depth => spaces (depth * width)) lines).length =
      (textOfAll (fun _ => "") lines).length + (lines.map depth).sum * width := by
  induction lines with
  | nil => simp [textOfAll]
  | cons line rest ih =>
    rw [textOfAll, List.map_cons, String.join_cons, String.length_append, length_text, textOfAll,
      List.map_cons, String.join_cons, String.length_append, List.map_cons, List.sum_cons,
      Nat.add_mul]
    simp only [textOfAll] at ih
    omega

/-- Two widths show the same exactly where no line is below the first level. -/
theorem textOfAll_spaces_eq_iff {lines : List PageLine} {width other : Nat} :
    textOfAll (fun depth => spaces (depth * width)) lines =
        textOfAll (fun depth => spaces (depth * other)) lines ↔
      width = other ∨ ∀ line ∈ lines, line.depth = 0 := by
  constructor
  · intro same
    have lengths := congrArg String.length same
    rw [length_textOfAll, length_textOfAll, Nat.add_left_cancel_iff] at lengths
    rcases Nat.eq_zero_or_pos (lines.map depth).sum with flat | nested
    · exact .inr (List.forall_mem_map.1 (List.sum_eq_zero_iff_forall_eq_nat.1 flat))
    · exact .inl (Nat.eq_of_mul_eq_mul_left nested lengths)
  · rintro (rfl | flat)
    · rfl
    · refine congrArg String.join (List.map_congr_left fun line listed => ?_)
      cases line with
      | blank => rfl
      | written depth content =>
        obtain rfl : depth = 0 := flat _ listed
        simp [text]

end PageLine

open PageLine (textOfAll)

/-- A rendering with some width has the lines of the tree behind as many spaces as their depth asks
for. -/
def HonoursWidth (width : Nat) (fragments : List Fragment) : Prop :=
  Page.render (.spaces width) fragments =
    textOfAll (fun depth => spaces (depth * width)) (Fragment.linesOfAll 0 fragments)

theorem honoursWidth_iff {width : Nat} {fragments : List Fragment} :
    HonoursWidth width fragments ↔
      (width = 2 ∨ width = 4 ∨ width = 8) ∨
        ∀ line ∈ Fragment.linesOfAll 0 fragments, line.depth = 0 := by
  have margins : Page.margin (.spaces width) = fun depth => spaces (depth * writtenWidth width) :=
    funext (margin_spaces width)
  rw [HonoursWidth, Page.render_eq_lines, margins, PageLine.textOfAll_spaces_eq_iff,
    writtenWidth_eq_self_iff]

/-- Two spaces are always honoured, and another width is honoured in a tree exactly when it is two,
four or eight or the tree has no line below its first level; so it is honoured in every tree exactly
when it is one of these three. -/
theorem widths_honoured_iff (width : Nat) :
    (∀ fragments, HonoursWidth 2 fragments ∧
      (HonoursWidth width fragments ↔
        (width = 2 ∨ width = 4 ∨ width = 8) ∨
          ∀ line ∈ Fragment.linesOfAll 0 fragments, line.depth = 0)) ∧
    ((∀ fragments, HonoursWidth width fragments) ↔ width = 2 ∨ width = 4 ∨ width = 8) := by
  refine ⟨fun fragments => ⟨honoursWidth_iff.2 (.inl (.inl rfl)), honoursWidth_iff⟩, ?_, ?_⟩
  · intro honoured
    refine (honoursWidth_iff.1 (honoured [.indented [.line ""]])).resolve_right fun flat => ?_
    exact absurd (flat (.written 1 "") List.mem_cons_self) Nat.one_ne_zero
  · exact fun one fragments => honoursWidth_iff.2 (.inl one)

/-- Three spaces are asked for, and four are written. -/
theorem three_spaces_not_honoured :
    Page.render (.spaces 3) [.indented [.line "x"]] = "    x\n" ∧
      ¬ HonoursWidth 3 [.indented [.line "x"]] := by
  have written : Page.render (.spaces 3) [.indented [.line "x"]] = "    x\n" := by decide
  refine ⟨written, fun honoured => ?_⟩
  have three : Page.render (.spaces 3) [.indented [.line "x"]] = "   x\n" := honoured
  exact absurd (written.symm.trans three) (by decide)

end TypeBridge
