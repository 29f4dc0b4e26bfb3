import Promptline.Display.Layout
import Promptline.Text.Lines

set_option autoImplicit false

namespace Promptline.Display

def rowsOf (width : Nat) (line : Text) : Nat := max (layout width line).rows 1

/-- Splits lines, of which the first starts on `row`, before the first one that starts on `limit` or
later. -/
def cutLines (width limit : Nat) : Nat → List Text → List Text × List Text
  | _, [] => ([], [])
  | row, line :: rest =>
    if limit ≤ row then ([], line :: rest)
    else
      let (above, below) := cutLines width limit (row + rowsOf width line) rest
      (line :: above, below)

def linesBefore (t : Text) (row width : Nat) : Text :=
  (cutLines width row 0 (Text.splitLines t)).1.flatten

def linesAfter (t : Text) (row width : Nat) : Text :=
  (cutLines width row 0 (Text.splitLines t)).2.flatten

theorem cutLines_append (width limit row : Nat) (ls : List Text) :
    (cutLines width limit row ls).1 ++ (cutLines width limit row ls).2 = ls := by
  induction ls generalizing row with
  | nil => rfl
  | cons line rest ih =>
    simp only [cutLines]
    split
    · rfl
    · simp [ih]

theorem linesBefore_append_linesAfter (t : Text) (row width : Nat) :
    linesBefore t row width ++ linesAfter t row width = t := by
  simp [linesBefore, linesAfter, ← List.flatten_append, cutLines_append, Text.splitLines_flatten]

end Promptline.Display
