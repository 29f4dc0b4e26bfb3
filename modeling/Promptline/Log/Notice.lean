import Promptline.Keys.Action
import Promptline.Keys.DoublePress

set_option autoImplicit false

namespace Promptline.Log

open Keys

inductive Level
  | error
  | warn
  | info
  | debug
  | trace
  deriving DecidableEq

namespace Level

def rank : Level → Nat
  | error => 0
  | warn => 1
  | info => 2
  | debug => 3
  | trace => 4

def label : Level → String
  | error => "ERROR"
  | warn => " WARN"
  | info => " INFO"
  | debug => "DEBUG"
  | trace => "TRACE"

end Level

/-- The least urgent level that is written; `none` writes nothing. -/
abbrev Threshold := Option Level

def Threshold.admits (t : Threshold) (l : Level) : Bool := t.any (l.rank ≤ ·.rank)

inductive Notice
  | keyPress (action : Action)
  | historyCommit (entries : Nat) (accepted : Bool)
  | submit (lines promptNumber : Nat)
  | interrupt (promptNumber : Nat)
  | closed (promptNumber : Nat)
  | singlePress (key : TwiceKey)
  | doublePress (key : TwiceKey)
  | pasteFailed (reason : String)
  | copyFailed (reason : String)
  deriving DecidableEq

namespace Notice

def level : Notice → Level
  | keyPress _ => .trace
  | historyCommit _ _ | interrupt _ | singlePress _ | doublePress _ => .debug
  | submit _ _ | closed _ => .info
  | pasteFailed _ | copyFailed _ => .warn

def message : Notice → String
  | keyPress _ => "key press"
  | historyCommit _ _ => "history commit"
  | submit _ _ => "submit"
  | interrupt _ => "interrupt"
  | closed _ => "editor closed"
  | singlePress _ => "single press"
  | doublePress _ => "double press"
  | pasteFailed _ => "clipboard paste failed"
  | copyFailed _ => "clipboard copy failed"

def fields : Notice → List (String × String)
  | keyPress action => [("action", action.name)]
  | historyCommit entries accepted =>
    [("entries", toString entries), ("accepted", if accepted then "true" else "false")]
  | submit lines promptNumber =>
    [("lines", toString lines), ("prompt_number", toString promptNumber)]
  | interrupt promptNumber | closed promptNumber => [("prompt_number", toString promptNumber)]
  | singlePress key | doublePress key => [("key", key.name)]
  | pasteFailed reason | copyFailed reason => [("error", reason)]

def line (n : Notice) : String :=
  n.fields.foldl (fun acc (key, value) => acc ++ " " ++ key ++ "=" ++ value)
    (n.level.label ++ " " ++ n.message)

end Notice

def writtenLines (t : Threshold) (notices : List Notice) : List String :=
  (notices.filter fun n => t.admits n.level).map Notice.line

end Promptline.Log
