/-!
# What is behind a front

Taking a given text off the front of another one.
-/

namespace TypeBridge.Text

/-- The text behind a front, if the text begins with it. -/
def behindFront? : (front text : List Char) → Option (List Char)
  | [], text => some text
  | _ :: _, [] => none
  | c :: front, d :: text => if c = d then behindFront? front text else none

theorem behindFront?_eq_some_iff {front text rest : List Char} :
    behindFront? front text = some rest ↔ text = front ++ rest := by
  induction front generalizing text with
  | nil => simp [behindFront?]
  | cons c front ih =>
    cases text with
    | nil => simp [behindFront?]
    | cons d text =>
      by_cases same : c = d
      · simp [behindFront?, same, ih]
      · simp [behindFront?, same, Ne.symm same]

end TypeBridge.Text
