import Promptline.Program
import Promptline.Terminal.Sequence

set_option autoImplicit false

namespace Promptline.Program

open Session

def emit (log : Log.Config) (s : Session) : IO Session := do
  let output ← IO.getStdout
  output.putStr (String.ofList (s.drawn.flatMap Terminal.Call.sequence))
  output.flush
  match log.files s.notices with
  | [] => pure ()
  | files => files.forM fun (path, lines) =>
    IO.FS.withFile (String.ofList path) .append fun file => lines.forM file.putStrLn
  pure { s with drawn := [], notices := [] }

/-- Goes on to the next line until the session or the input ends. -/
partial def converse (setup : Setup) (log : Log.Config) (s : Session) : IO UInt32 := do
  let line ← (← IO.getStdin).getLine
  let step : Act Bool :=
    if line.isEmpty then close *> pure true
    else respond setup (Keys.KeyPress.typing line.toList)
  match step s with
  | .ok false s => converse setup log (← emit log s)
  | .ok true s =>
    discard (emit log s)
    IO.println ""
    pure 0
  | .error e s =>
    discard (emit log s)
    IO.eprintln e.message
    pure 1

end Promptline.Program

open Promptline Program in
def main (arguments : List String) : IO UInt32 := do
  match parse arguments with
  | .error e =>
    IO.eprintln (e.message ++ "\n" ++ usage)
    pure 2
  | .ok options =>
    match Session.create options.setup Session.Size.standard [] [] with
    | .error e =>
      IO.eprintln e.message
      pure 1
    | .ok s => converse options.setup options.log (← emit options.log s)
