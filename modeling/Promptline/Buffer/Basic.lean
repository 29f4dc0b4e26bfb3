import Promptline.Display.Layout
import Promptline.Text.Basic
import Promptline.Text.Cluster

/-!
The text being edited, split at the cursor, so a cursor can never lie outside the text or inside a
character. `screenRow` is the row of the cursor counted from the row of the prompt, as of the last
time it was computed.
-/

set_option autoImplicit false

namespace Promptline

open Display

structure Buffer where
  before : Text
  after : Text
  screenRow : Nat
  deriving DecidableEq

namespace Buffer

def empty : Buffer := ⟨[], [], 0⟩

def text (b : Buffer) : Text := b.before ++ b.after

/-- The byte offset of the cursor in the text. -/
def cursor (b : Buffer) : Nat := Text.bytes b.before

def isEmpty (b : Buffer) : Bool := b.text.isEmpty

def isBlank (b : Buffer) : Bool := Text.isBlank b.text

def above (b : Buffer) : Text := (b.before.reverse.dropWhile (· != '\n')).reverse

def lineBefore (b : Buffer) : Text := (b.before.reverse.takeWhile (· != '\n')).reverse

def lineAfter (b : Buffer) : Text := b.after.takeWhile (· != '\n')

def below (b : Buffer) : Text := b.after.dropWhile (· != '\n')

def currentLine (b : Buffer) : Text := b.lineBefore ++ b.lineAfter

def lineIndex (b : Buffer) : Nat := b.before.count '\n'

def isOnFirstLine (b : Buffer) : Bool := !b.before.contains '\n'

def isOnLastLine (b : Buffer) : Bool := !b.after.contains '\n'

def lineRange (b : Buffer) : Nat × Nat :=
  (Text.bytes b.above, Text.bytes b.above + Text.bytes b.currentLine)

/-- The line `offset` lines below the cursor's line, or the nearest line that exists. A text that
ends in a line feed has an empty last line unless `ignoreNewline` is set. -/
def getLine (b : Buffer) (offset : Int) (ignoreNewline : Bool) : Text :=
  let lines := Text.splitLines b.text
  let last := lines.length - 1
  let index := min (b.lineIndex + offset).toNat last
  if index = last && b.text.getLast? = some '\n' && !ignoreNewline then []
  else lines[index]?.getD []

def cursorLayout (b : Buffer) (ctx : Context) : Layout := ctx.layoutOf b.before

def textLayout (b : Buffer) (ctx : Context) : Layout := ctx.layoutOf b.text

def cursorRow (b : Buffer) (ctx : Context) : Nat := ((b.cursorLayout ctx).screen ctx.width).rows

def updateScreenRow (b : Buffer) (ctx : Context) : Buffer :=
  { b with screenRow := b.cursorRow ctx }

theorem above_append_lineBefore (b : Buffer) : b.above ++ b.lineBefore = b.before := by
  rw [above, lineBefore, ← List.reverse_append, List.takeWhile_append_dropWhile,
    List.reverse_reverse]

theorem lineAfter_append_below (b : Buffer) : b.lineAfter ++ b.below = b.after :=
  List.takeWhile_append_dropWhile

end Buffer
end Promptline
