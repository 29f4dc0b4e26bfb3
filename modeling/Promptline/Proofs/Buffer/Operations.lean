import Promptline.Buffer.Reindent

set_option autoImplicit false

namespace Promptline.Buffer

open Display Indent

inductive Operation
  | reset
  | setText (t : Text)
  | insert (t : Text)
  | deleteBefore
  | deleteAfter
  | moveLeft
  | moveRight
  | moveToStart
  | moveToEnd
  | moveToLineStart
  | moveToLineEnd
  | moveToPrevLine
  | moveToNextLine
  | replaceLine (line : Text)
  | reindentLine (table : Table) (unit : Text) (ctx : Context)
  | reindentAll (table : Table) (unit : Text) (ctx : Context)
  | updateScreenRow (ctx : Context)

def apply (b : Buffer) : Operation → Buffer
  | .reset => empty
  | .setText t => b.setText t
  | .insert t => b.insert t
  | .deleteBefore => b.deleteBefore?.getD b
  | .deleteAfter => b.deleteAfter?.getD b
  | .moveLeft => b.moveLeft?.getD b
  | .moveRight => b.moveRight?.getD b
  | .moveToStart => b.moveToStart
  | .moveToEnd => b.moveToEnd
  | .moveToLineStart => b.moveToLineStart
  | .moveToLineEnd => b.moveToLineEnd
  | .moveToPrevLine => b.moveToPrevLine?.getD b
  | .moveToNextLine => b.moveToNextLine?.getD b
  | .replaceLine line => b.replaceLine line
  | .reindentLine table unit ctx => (b.reindentLine table unit ctx).1
  | .reindentAll table unit ctx => b.reindentAll table unit ctx
  | .updateScreenRow ctx => b.updateScreenRow ctx

def run (ops : List Operation) : Buffer := ops.foldl apply empty

theorem run_concat (ops : List Operation) (op : Operation) :
    run (ops ++ [op]) = (run ops).apply op := by
  simp [run]

end Promptline.Buffer
