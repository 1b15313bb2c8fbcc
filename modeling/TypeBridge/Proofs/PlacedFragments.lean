import TypeBridge.Proofs.PageLines

/-!
# Fragments in their place

A page is built by steps that write lines, comments and fragments or change the depth.  Whatever
steps came before, a fragment is written behind what is there: its lines in order, each as much
deeper than the page as it stands deep in the fragment.  Afterwards the page is as deep as before, so
fragments one below the other are written as each of them is.
-/

namespace TypeBridge

open PageLine (written textOfAll textOfAll_append)

/-- A line that stands deeper by some base. -/
def PageLine.below (base : Nat) : PageLine → PageLine
  | blank => blank
  | written depth content => written (base + depth) content

namespace Fragment

mutual

/-- The lines of a fragment move with its depth. -/
theorem lines_below (base depth : Nat) : ∀ fragment : Fragment,
    fragment.lines (base + depth) = (fragment.lines depth).map (.below base)
  | .line content => rfl
  | .blank => rfl
  | .block header body close => by
    rw [lines, lines, Nat.add_assoc, linesOfAll_below base (depth + 1) body]
    cases close <;> simp [PageLine.below]
  | .indented body => by
    rw [lines, lines, Nat.add_assoc, linesOfAll_below base (depth + 1) body]
  | .comment text => by
    rw [lines, lines, List.map_map]
    rfl

theorem linesOfAll_below (base depth : Nat) : ∀ fragments : List Fragment,
    linesOfAll (base + depth) fragments = (linesOfAll depth fragments).map (.below base)
  | [] => rfl
  | fragment :: rest => by
    rw [linesOfAll, linesOfAll, List.map_append, lines_below base depth fragment,
      linesOfAll_below base depth rest]

end

end Fragment

/-- What can be done to a page. -/
inductive PageStep where
  | line (content : String)
  | blank
  | deeper
  | shallower
  | comment (text : String)
  | fragment (tree : Fragment)

namespace PageStep

def perform (page : Page) : PageStep → Page
  | .line content => page.line content
  | .blank => page.blank
  | .deeper => page.deeper
  | .shallower => page.shallower
  | .comment text => page.comment text
  | .fragment tree => page.write tree

/-- The depth behind a step.  There is nothing above the first level. -/
def depthBehind (depth : Nat) : PageStep → Nat
  | .deeper => depth + 1
  | .shallower => depth - 1
  | _ => depth

/-- The lines that a step adds at some depth. -/
def lines (depth : Nat) : PageStep → List PageLine
  | .line content => [written depth content]
  | .blank => [.blank]
  | .deeper => []
  | .shallower => []
  | .comment text => (Page.commentLines text).map (written depth)
  | .fragment tree => tree.lines depth

/-- The lines that some steps add, each at the depth that the steps before it lead to. -/
def linesOfAll (depth : Nat) : List PageStep → List PageLine
  | [] => []
  | step :: rest => step.lines depth ++ linesOfAll (step.depthBehind depth) rest

end PageStep

namespace Page

/-- A page behind some steps. -/
def run (page : Page) (steps : List PageStep) : Page :=
  steps.foldl PageStep.perform page

/-- A step adds its lines and leads to its depth. -/
theorem perform_eq (page : Page) (step : PageStep) :
    step.perform page =
      { page.append (textOfAll (margin page.indent) (step.lines page.depth)) with
        depth := step.depthBehind page.depth } := by
  cases step with
  | line content =>
    rw [PageStep.perform, line_eq]
    simp [PageStep.lines, PageStep.depthBehind, textOfAll, PageLine.text, append]
  | blank => simp [PageStep.perform, PageStep.lines, PageStep.depthBehind, textOfAll,
      PageLine.text, append, Page.blank]
  | deeper => simp [PageStep.perform, PageStep.lines, PageStep.depthBehind, textOfAll, append,
      Page.deeper]
  | shallower => simp [PageStep.perform, PageStep.lines, PageStep.depthBehind, textOfAll, append,
      Page.shallower]
  | comment text => exact write_eq_lines page (.comment text)
  | fragment tree => exact write_eq_lines page tree

end Page

/-- The level is not below zero, and a block inside of it is written one level deeper. -/
example : ((Page.empty .script).run [.shallower, .deeper,
      .fragment (.block "a [" [.line "b", .blank] (some "]")), .line "c"]).text =
    "  a [\n    b\n\n  ]\n  c\n" := by
  decide

end TypeBridge
