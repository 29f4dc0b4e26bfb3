import Promptline.Text.Basic

/-!
What an editor asks of the place where it draws, and the control sequences by which a terminal in
raw mode carries out these calls. Positions are counted from 1 and all numbers are limited to 16 bits. Raw mode needs a carriage return before each line
feed.
-/

set_option autoImplicit false

namespace Promptline.Terminal

inductive Call
  /-- To a column, and to a row counted from the top of the screen if one is given. -/
  | cursorTo (column : Nat) (row : Option Nat)
  /-- Relative to where the cursor is. -/
  | moveCursor (columns rows : Int)
  | clearToEnd
  | write (t : Text)
  | flush
  deriving DecidableEq

def writtenText (calls : List Call) : Text :=
  calls.flatMap fun
    | .write t => t
    | _ => []

def limit (n : Nat) : Nat := min n 65535

def decimal (n : Nat) : Text := Nat.toDigits 10 n

def control (n : Nat) (final : Char) : Text := '\x1b' :: '[' :: (decimal n ++ [final])

def relative (delta : Int) (backward forward : Char) : Text :=
  if delta < 0 then control (limit delta.natAbs) backward
  else if 0 < delta then control (limit delta.natAbs) forward
  else []

def withCarriageReturns (t : Text) : Text :=
  t.flatMap fun c => if c = '\n' then ['\r', '\n'] else [c]

def Call.sequence : Call → Text
  | .cursorTo column (some row) =>
    '\x1b' :: '[' :: (decimal (limit row + 1) ++ ';' :: (decimal (limit column + 1) ++ ['H']))
  | .cursorTo column none => control (limit column + 1) 'G'
  | .moveCursor columns rows => relative columns 'D' 'C' ++ relative rows 'A' 'B'
  | .clearToEnd => ['\x1b', '[', 'J']
  | .write t => withCarriageReturns t
  | .flush => []

end Promptline.Terminal
