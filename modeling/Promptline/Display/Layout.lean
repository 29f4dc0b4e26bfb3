import Promptline.Display.Escape
import Promptline.Text.Lines

/-!
Where text ends up on a terminal. `columns` is the column just past the last glyph of the final row
and `rows` counts the row transitions before it. A row that is filled exactly has `columns` equal to
the width: the terminal wraps only when the next glyph comes. A width of 0 counts as 1. An edited
text is displayed with the prompt before its first line and the continuation prompt before every
other one.
-/

set_option autoImplicit false

namespace Promptline.Display

def fullWidth : List (Nat × Nat) :=
  [(0x1100, 0x115F), (0x2329, 0x232A), (0x2E80, 0x303E), (0x3040, 0x3247), (0x3250, 0x4DBF),
    (0x4E00, 0xA4C6), (0xA960, 0xA97C), (0xAC00, 0xD7A3), (0xF900, 0xFAFF), (0xFE10, 0xFE19),
    (0xFE30, 0xFE6B), (0xFF01, 0xFF60), (0xFFE0, 0xFFE6), (0x1B000, 0x1B001), (0x1F200, 0x1F251),
    (0x20000, 0x3FFFD)]

def isFullWidth (c : Char) : Bool := Text.inRanges fullWidth c.toNat

def charWidth (c : Char) : Nat := if isFullWidth c then 2 else 1

theorem charWidth_pos (c : Char) : 0 < charWidth c := by
  unfold charWidth
  split <;> decide

structure Layout where
  columns : Nat
  rows : Nat
  deriving DecidableEq

namespace Layout

def isPending (l : Layout) (width : Nat) : Bool := max width 1 ≤ l.columns

/-- The cell to which the terminal cursor can be moved: the end of a full row counts as the start of
the next one. -/
def screen (l : Layout) (width : Nat) : Layout :=
  if l.isPending width then ⟨0, l.rows + 1⟩ else l

def wrap (width offset : Nat) : Layout :=
  if 0 < offset && offset % width = 0 then ⟨width, offset / width - 1⟩
  else ⟨offset % width, offset / width⟩

end Layout

/-- Columns of the line being laid out, and rows of the lines before it. -/
structure Pen where
  offset : Nat
  rows : Nat
  deriving DecidableEq

namespace Pen

/-- A glyph of two columns that would straddle the edge leaves the last column of its row blank. -/
def advance (width : Nat) (p : Pen) (c : Char) : Pen :=
  if c = '\n' then ⟨0, p.rows + 1 + (Layout.wrap width p.offset).rows⟩
  else if charWidth c = 2 && (p.offset + 1) % width = 0 then { p with offset := p.offset + 3 }
  else { p with offset := p.offset + charWidth c }

def layout (width : Nat) (p : Pen) : Layout :=
  let tail := Layout.wrap width p.offset
  ⟨tail.columns, p.rows + tail.rows⟩

end Pen

def layoutShown (width : Nat) (shown : Text) : Layout :=
  (shown.foldl (Pen.advance width) ⟨0, 0⟩).layout width

def layout (width : Nat) (t : Text) : Layout := layoutShown (max width 1) (strip t)

structure Prompts where
  first : Text
  continuation : Text
  deriving DecidableEq

namespace Prompts

/-- Lines with the prompts before them; `style` gives what is shown for a line. -/
def showLines (p : Prompts) (style : Text → Text) : List Text → Text
  | [] => p.first
  | line :: rest => p.first ++ style line ++ rest.flatMap fun l => '\n' :: p.continuation ++ style l

def decorate (p : Prompts) (t : Text) : Text := p.showLines id (Text.lines t)

end Prompts

structure Context where
  prompts : Prompts
  width : Nat
  deriving DecidableEq

def Context.layoutOf (ctx : Context) (t : Text) : Layout :=
  layout ctx.width (ctx.prompts.decorate t)

end Promptline.Display
