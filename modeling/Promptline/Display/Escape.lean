import Promptline.Text.Basic

/-!
The text that a terminal shows when escape sequences are taken out of a byte stream. Characters are
read one at a time in the ground mode; every other mode is inside a sequence and reads bytes, of
which all that end or extend a sequence are ASCII. The one exception is the end mark `0x9C` of a
device control string, which also counts in the middle of a character.
-/

set_option autoImplicit false

namespace Promptline.Display

inductive Mode
  | ground
  | escape
  | escapeIntermediate
  | csiEntry
  | csiParam
  | csiIntermediate
  | csiIgnore
  | dcsEntry
  | dcsParam
  | dcsIntermediate
  | dcsIgnore
  | dcsPassthrough
  | osc
  | textString
  deriving DecidableEq

namespace Mode

/-- A control character takes effect in the middle of these sequences; elsewhere it is lost. -/
def executes : Mode → Bool
  | escape | escapeIntermediate | csiEntry | csiParam | csiIntermediate | csiIgnore => true
  | _ => false

def afterAscii (m : Mode) (b : Nat) : Mode :=
  let within (low high : Nat) : Bool := low ≤ b && b ≤ high
  if b = 0x1B then .escape
  else if b = 0x18 || b = 0x1A then .ground
  else match m with
    | .ground => .ground
    | .escape =>
      if within 0x20 0x2F then .escapeIntermediate
      else if b = 0x50 then .dcsEntry
      else if b = 0x58 || b = 0x5E || b = 0x5F then .textString
      else if b = 0x5B then .csiEntry
      else if b = 0x5D then .osc
      else if within 0x30 0x7E then .ground
      else .escape
    | .escapeIntermediate => if within 0x30 0x7E then .ground else .escapeIntermediate
    | .csiEntry =>
      if within 0x20 0x2F then .csiIntermediate
      else if within 0x30 0x3F then .csiParam
      else if within 0x40 0x7E then .ground
      else .csiEntry
    | .csiParam =>
      if within 0x20 0x2F then .csiIntermediate
      else if within 0x3C 0x3F then .csiIgnore
      else if within 0x40 0x7E then .ground
      else .csiParam
    | .csiIntermediate =>
      if within 0x30 0x3F then .csiIgnore
      else if within 0x40 0x7E then .ground
      else .csiIntermediate
    | .csiIgnore => if within 0x40 0x7E then .ground else .csiIgnore
    | .dcsEntry =>
      if within 0x20 0x2F then .dcsIntermediate
      else if within 0x30 0x3F then .dcsParam
      else if within 0x40 0x7E then .dcsPassthrough
      else .dcsEntry
    | .dcsParam =>
      if within 0x20 0x2F then .dcsIntermediate
      else if within 0x3C 0x3F then .dcsIgnore
      else if within 0x40 0x7E then .dcsPassthrough
      else .dcsParam
    | .dcsIntermediate =>
      if within 0x30 0x3F then .dcsIgnore
      else if within 0x40 0x7E then .dcsPassthrough
      else .dcsIntermediate
    | .osc => if b = 0x07 then .ground else .osc
    | .dcsIgnore | .dcsPassthrough | .textString => m

end Mode

/-- What is left of a character cut by the end mark `0x9C`: nothing when the mark is not in it,
otherwise its bytes after the mark, none of which can begin a character. -/
def cutAtEndMark? (c : Char) : Option (List UInt8) :=
  match (String.utf8EncodeChar c).dropWhile (· != 0x9C) with
  | [] => none
  | _ :: stray => some stray

/-- A stray byte shows as a replacement character unless it is in the range of the controls. -/
def showStray (stray : List UInt8) : Text :=
  (stray.filter (0xA0 ≤ ·)).map fun _ => '\uFFFD'

def step (m : Mode) (c : Char) : Mode × Text :=
  let n := c.toNat
  match m with
  | .ground =>
    if n = 0x1B then (.escape, [])
    else if c = '\n' then (.ground, [c])
    else if n < 0x20 || (0x80 ≤ n && n ≤ 0x9F) then (.ground, [])
    else (.ground, [c])
  | .dcsPassthrough =>
    if n < 0x80 then (m.afterAscii n, [])
    else match cutAtEndMark? c with
      | none => (m, [])
      | some stray => (.ground, showStray stray)
  | _ =>
    if n < 0x80 then (m.afterAscii n, if m.executes && c = '\n' then [c] else [])
    else (m, [])

/-- Reads a text from a mode on: the mode it ends in and what it shows. -/
def run : Mode → Text → Mode × Text
  | m, [] => (m, [])
  | m, c :: t =>
    let (next, shown) := step m c
    let (last, rest) := run next t
    (last, shown ++ rest)

def strip (t : Text) : Text := (run .ground t).2

theorem run_append (m : Mode) (s t : Text) :
    run m (s ++ t) = ((run (run m s).1 t).1, (run m s).2 ++ (run (run m s).1 t).2) := by
  induction s generalizing m with
  | nil => simp [run]
  | cons c s ih => simp [run, ih]

end Promptline.Display
