import Promptline.Proofs.Buffer.Lines
import Promptline.Proofs.Buffer.Operations
import Promptline.Proofs.Display.Arithmetic
import Promptline.Proofs.Indent.Offsets

/-!
A buffer whose cursor is a byte offset and not a place where the text is split. Its operations slice and
index the text with offsets that they compute, and every access is checked.
-/

set_option autoImplicit false

namespace Promptline

open Display Indent

namespace Text

def lineRangeAt? (t : Text) (offset : Nat) : Option (Nat × Nat) := do
  let (before, after) ← splitAt? offset t
  let start := ((indicesOf (· == '\n') before).getLast?.map (· + 1)).getD 0
  let stop := ((indicesOf (· == '\n') after).head?.map (offset + ·)).getD (bytes t)
  return (start, stop)

def offsetAtColumn? (t : Text) (range : Nat × Nat) (column : Nat) : Option Nat := do
  let line ← slice? range.1 range.2 t
  return ((starts 0 (clusters line))[column]?.map (range.1 + ·)).getD range.2

def leadingSpaceBytes? (line : Text) : Option Nat := sub? (bytes line) (bytes (trimStart line))

def lineStart? (t : Text) (n : Nat) : Option Nat :=
  if n = 0 then some 0
  else do
    let index ← sub? n 1
    return ((indicesOf (· == '\n') t)[index]?.map (· + 1)).getD 0

/-- The offset that is so many bytes into what a line holds after its white space, or the end of the
line. -/
def offsetInContent? (t : Text) (lineIndex content : Nat) : Option Nat := do
  let offset ← lineStart? t lineIndex
  let (start, stop) ← lineRangeAt? t offset
  let line ← slice? start stop t
  let space ← leadingSpaceBytes? line
  snapDown? t (min (start + space + content) stop)

end Text

structure OffsetBuffer where
  text : Text
  cursor : Nat
  screenRow : Nat

namespace OffsetBuffer

open Text

def empty : OffsetBuffer := ⟨[], 0, 0⟩

def of (b : Buffer) : OffsetBuffer := ⟨b.text, b.cursor, b.screenRow⟩

def lineIndex? (o : OffsetBuffer) : Option Nat := do
  let (before, _) ← splitAt? o.cursor o.text
  return (indicesOf (· == '\n') before).length

def isOnFirstLine? (o : OffsetBuffer) : Option Bool := do
  let (before, _) ← splitAt? o.cursor o.text
  return !before.contains '\n'

def isOnLastLine? (o : OffsetBuffer) : Option Bool := do
  let (_, after) ← splitAt? o.cursor o.text
  return !after.contains '\n'

def lineRange? (o : OffsetBuffer) : Option (Nat × Nat) := lineRangeAt? o.text o.cursor

def getLine? (o : OffsetBuffer) (offset : Int) (ignoreNewline : Bool) : Option Text := do
  let lines := splitLines o.text
  if lines.isEmpty then return o.text
  else
    let last ← sub? lines.length 1
    let lineIndex ← o.lineIndex?
    let index := min (lineIndex + offset).toNat last
    if index = last && o.text.getLast? = some '\n' && !ignoreNewline then return []
    else lines[index]?

def lineBefore? (o : OffsetBuffer) : Option Text := do
  let (start, _) ← o.lineRange?
  slice? start o.cursor o.text

def column? (o : OffsetBuffer) : Option Nat := do
  let line ← o.lineBefore?
  return (clusters line).length

def cursorLayout? (o : OffsetBuffer) (ctx : Context) : Option Layout := do
  let (before, _) ← splitAt? o.cursor o.text
  ctx.layoutOf? before

def textLayout? (o : OffsetBuffer) (ctx : Context) : Option Layout := ctx.layoutOf? o.text

def cursorRow? (o : OffsetBuffer) (ctx : Context) : Option Nat := do
  let layout ← o.cursorLayout? ctx
  return (layout.screen ctx.width).rows

def setText (o : OffsetBuffer) (t : Text) : OffsetBuffer := { o with text := t, cursor := bytes t }

def insert? (o : OffsetBuffer) (t : Text) : Option OffsetBuffer := do
  let text ← insertAt? o.cursor t o.text
  return { o with text, cursor := o.cursor + bytes t }

-- From here on `some none` means that there is nothing to delete or no room to move.

def deleteBefore? (o : OffsetBuffer) : Option (Option OffsetBuffer) := do
  let (before, _) ← splitAt? o.cursor o.text
  match (clusters before).getLast? with
  | none => return none
  | some cluster =>
    let start ← sub? o.cursor (bytes cluster)
    let text ← replaceRange? start o.cursor [] o.text
    return some { o with text, cursor := start }

def deleteAfter? (o : OffsetBuffer) : Option (Option OffsetBuffer) := do
  let (_, after) ← splitAt? o.cursor o.text
  match (clusters after).head? with
  | none => return none
  | some cluster =>
    let text ← replaceRange? o.cursor (o.cursor + bytes cluster) [] o.text
    return some { o with text }

def moveLeft? (o : OffsetBuffer) : Option (Option OffsetBuffer) := do
  let (before, _) ← splitAt? o.cursor o.text
  match (clusters before).getLast? with
  | none => return none
  | some cluster =>
    let cursor ← sub? o.cursor (bytes cluster)
    return some { o with cursor }

def moveRight? (o : OffsetBuffer) : Option (Option OffsetBuffer) := do
  let (_, after) ← splitAt? o.cursor o.text
  match (clusters after).head? with
  | none => return none
  | some cluster => return some { o with cursor := o.cursor + bytes cluster }

def moveToStart (o : OffsetBuffer) : OffsetBuffer := { o with cursor := 0 }

def moveToEnd (o : OffsetBuffer) : OffsetBuffer := { o with cursor := bytes o.text }

def moveToLineStart? (o : OffsetBuffer) : Option OffsetBuffer := do
  let (start, _) ← o.lineRange?
  return { o with cursor := start }

def moveToLineEnd? (o : OffsetBuffer) : Option OffsetBuffer := do
  let (_, stop) ← o.lineRange?
  return { o with cursor := stop }

def moveToPrevLine? (o : OffsetBuffer) : Option (Option OffsetBuffer) := do
  let (start, _) ← o.lineRange?
  if start = 0 then return none
  else
    let column ← o.column?
    let offset ← sub? start 1
    let prev ← lineRangeAt? o.text offset
    let cursor ← offsetAtColumn? o.text prev column
    return some { o with cursor }

def moveToNextLine? (o : OffsetBuffer) : Option (Option OffsetBuffer) := do
  let (_, stop) ← o.lineRange?
  if stop = bytes o.text then return none
  else
    let column ← o.column?
    let next ← lineRangeAt? o.text (stop + 1)
    let cursor ← offsetAtColumn? o.text next column
    return some { o with cursor }

def replaceLine? (o : OffsetBuffer) (line : Text) : Option OffsetBuffer := do
  let (start, stop) ← o.lineRange?
  let fromEnd ← sub? stop o.cursor
  let text ← replaceRange? start stop line o.text
  let cursor ← snapDown? text (max (start + bytes line - fromEnd) start)
  return { o with text, cursor }

def updateScreenRow? (o : OffsetBuffer) (ctx : Context) : Option OffsetBuffer := do
  let screenRow ← o.cursorRow? ctx
  return { o with screenRow }

def reindentLine? (o : OffsetBuffer) (table : Table) (unit : Text) (ctx : Context) :
    Option (OffsetBuffer × Int) := do
  let lineIndex ← o.lineIndex?
  let frames ← scan? table ((lines o.text).take (lineIndex + 1))
  let indent := Buffer.indentation unit (indentFor frames lineIndex)
  let (start, stop) ← o.lineRange?
  let line ← slice? start stop o.text
  let space ← leadingSpaceBytes? line
  let leading ← slice? start (start + space) o.text
  if leading = indent then return (o, 0)
  else
    let rowBefore : Nat ← o.cursorRow? ctx
    let column ← sub? o.cursor start
    let text ← replaceRange? start (start + space) indent o.text
    let moved := { o with text, cursor := start + bytes indent + (column - space) }
    let rowAfter : Nat ← moved.cursorRow? ctx
    let delta : Int := rowAfter - rowBefore
    return ({ moved with screenRow := (o.screenRow + delta).toNat }, delta)

def reindentedLines? (table : Table) (unit : Text) (t : Text) : Option (List Text) := do
  let frames ← scan? table (lines t)
  return (lines t).zipIdx.map fun (line, index) =>
    Buffer.indentation unit (indentFor frames index) ++ trimStart line

def reindentAll? (o : OffsetBuffer) (table : Table) (unit : Text) (ctx : Context) :
    Option OffsetBuffer := do
  let lineIndex ← o.lineIndex?
  let (start, stop) ← o.lineRange?
  let line ← slice? start stop o.text
  let space ← leadingSpaceBytes? line
  let column ← sub? o.cursor start
  let reindented ← reindentedLines? table unit o.text
  let text := joinLines reindented
  let cursor ← offsetInContent? text lineIndex (column - space)
  updateScreenRow? { o with text, cursor } ctx

open Buffer (Operation)

def operate? (o : OffsetBuffer) : Operation → Option OffsetBuffer
  | .reset => some empty
  | .setText t => some (o.setText t)
  | .insert t => o.insert? t
  | .deleteBefore => o.deleteBefore?.map (·.getD o)
  | .deleteAfter => o.deleteAfter?.map (·.getD o)
  | .moveLeft => o.moveLeft?.map (·.getD o)
  | .moveRight => o.moveRight?.map (·.getD o)
  | .moveToStart => some o.moveToStart
  | .moveToEnd => some o.moveToEnd
  | .moveToLineStart => o.moveToLineStart?
  | .moveToLineEnd => o.moveToLineEnd?
  | .moveToPrevLine => o.moveToPrevLine?.map (·.getD o)
  | .moveToNextLine => o.moveToNextLine?.map (·.getD o)
  | .replaceLine line => o.replaceLine? line
  | .reindentLine table unit ctx => (o.reindentLine? table unit ctx).map Prod.fst
  | .reindentAll table unit ctx => o.reindentAll? table unit ctx
  | .updateScreenRow ctx => o.updateScreenRow? ctx

def run? (ops : List Operation) : Option OffsetBuffer := ops.foldlM operate? empty

end OffsetBuffer
end Promptline
