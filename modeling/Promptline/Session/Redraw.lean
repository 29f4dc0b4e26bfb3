import Promptline.Buffer.Edit
import Promptline.Display.Rows
import Promptline.Session.State

set_option autoImplicit false

namespace Promptline.Session

open Display Terminal

def styledText (setup : Setup) (b : Buffer) : Text :=
  setup.config.prompts.showLines setup.presenter (Text.lines b.text)

/-- The last row to draw, given the one drawn before: the end of a text that fits, otherwise a row
from which the cursor is less than `height` rows away. -/
def lastRowFor (jump : Bool) (height textEnd cursor last : Nat) : Nat :=
  if height ≤ textEnd then
    min textEnd <|
      if jump || last < cursor then cursor
      else if height ≤ last - cursor then cursor + height - 1
      else last
  else textEnd

def dropLineFeed (t : Text) : Text := if t.getLast? = some '\n' then t.dropLast else t

structure View where
  display : Text
  cursor : Layout
  lastRow : Nat
  deriving DecidableEq

namespace View

def ofBuffer (setup : Setup) (size : Size) (jump : Bool) (last : Nat) (b : Buffer) : View :=
  let ctx : Context := ⟨setup.config.prompts, size.width⟩
  let textEnd := (b.textLayout ctx).screen size.width
  let cursor := (b.cursorLayout ctx).screen size.width
  let lastRow := lastRowFor jump size.height textEnd.rows cursor.rows last
  let styled := styledText setup b
  { display :=
      if size.height ≤ textEnd.rows then dropLineFeed (linesBefore styled (lastRow + 1) size.width)
      else styled
    cursor, lastRow }

/-- The calls that draw a view from the prompt's row on. A display that fills its last row gets a
blank behind it, which makes the terminal wrap. -/
def calls (v : View) (width : Nat) : List Call :=
  let written := layout width v.display
  let down : Int := v.cursor.rows - (written.screen width).rows
  [.cursorTo 0 none, .clearToEnd, .write v.display]
    ++ (if written.isPending width then [.write [' ']] else [])
    ++ [.cursorTo v.cursor.columns none]
    ++ (if down = 0 then [] else [.moveCursor 0 down])
    ++ [.flush]

end View

def returnCalls (lastCursorRow : Nat) : List Call :=
  if lastCursorRow = 0 then [] else [.moveCursor 0 (-lastCursorRow)]

/-- With `jump` the cursor goes to the end of the text first. -/
def redraw (setup : Setup) (jump : Bool) : Act Unit := do
  let s ← get
  let placed := if jump then s.editor.buffer.moveToEnd else s.editor.buffer
  let b := placed.updateScreenRow (s.context setup)
  let view := View.ofBuffer setup s.size jump s.editor.lastDisplayRow b
  modifyEditor fun e => { e with buffer := b, lastDisplayRow := view.lastRow }
  drawAll setup (returnCalls s.editor.lastCursorRow)
  modifyEditor fun e => { e with lastCursorRow := view.cursor.rows }
  drawAll setup (view.calls s.size.width)

end Promptline.Session
