import Promptline.Buffer.Edit
import Promptline.Indent.Scan

set_option autoImplicit false

namespace Promptline.Buffer

open Display Indent

def indentation (unit : Text) (depth : Nat) : Text := (List.replicate depth unit).flatten

def lineIndentation (b : Buffer) (table : Table) (unit : Text) : Text :=
  let frames := scan table ((Text.lines b.text).take (b.lineIndex + 1))
  indentation unit (indentFor frames b.lineIndex)

def withIndentation (b : Buffer) (indent : Text) : Buffer :=
  let inIndent := Text.isBlank b.lineBefore
  { b with
    before := b.above ++ indent ++ Text.trimStart b.lineBefore
    after := (if inIndent then Text.trimStart b.lineAfter else b.lineAfter) ++ b.below }

/-- Reindents the cursor's line. Where that moves the cursor to another row, `screenRow` moves by as
many rows, which are returned. -/
def reindentLine (b : Buffer) (table : Table) (unit : Text) (ctx : Context) : Buffer × Int :=
  let indent := b.lineIndentation table unit
  if Text.leadingSpace b.currentLine = indent then (b, 0)
  else
    let moved := b.withIndentation indent
    let delta : Int := moved.cursorRow ctx - b.cursorRow ctx
    ({ moved with screenRow := (b.screenRow + delta).toNat }, delta)

def reindentedLines (table : Table) (unit : Text) (t : Text) : List Text :=
  let lines := Text.lines t
  let frames := scan table lines
  lines.zipIdx.map fun (line, index) =>
    indentation unit (indentFor frames index) ++ Text.trimStart line

def reindentAll (b : Buffer) (table : Table) (unit : Text) (ctx : Context) : Buffer :=
  let content := Text.bytes b.lineBefore - Text.bytes (Text.leadingSpace b.currentLine)
  let reindented := Text.joinLines (reindentedLines table unit b.text)
  let (above, rest) := Text.splitAfterLines b.lineIndex reindented
  let line := rest.takeWhile (· != '\n')
  let start := Text.takeBytes (Text.bytes (Text.leadingSpace line) + content) line
  updateScreenRow { b with before := above ++ start, after := rest.drop start.length } ctx

end Promptline.Buffer
