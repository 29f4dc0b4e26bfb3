import Promptline.Buffer.Basic
import Promptline.History
import Promptline.Indent.Frame
import Promptline.Log.Notice
import Promptline.Session.Config
import Promptline.Terminal.Sequence

/-!
The state of a prompt session: the editor itself, and around it the place where it draws, the
clipboard, the subscribers, the clock and the keys still to come. An operation of a session that
fails keeps what it has done until then.
-/

set_option autoImplicit false

namespace Promptline.Session

open Indent Keys Terminal

inductive Readiness
  /-- A block is still open. -/
  | collecting
  | ready
  deriving DecidableEq

def Readiness.name : Readiness → String
  | .collecting => "Collecting"
  | .ready => "Ready"

structure Editor where
  buffer : Buffer
  /-- One frame per line of the buffer; none when it is empty. -/
  frames : List Frame
  readiness : Readiness
  history : History
  presses : DoublePress
  /-- Between a submission and the next prompt keys are dropped. -/
  isListening : Bool
  isClosed : Bool
  promptNumber : Nat
  /-- The row of the terminal cursor after the last drawing, counted from the prompt's row. -/
  lastCursorRow : Nat
  /-- The last row that is drawn when the text is taller than the terminal. -/
  lastDisplayRow : Nat
  deriving DecidableEq

inductive Event
  | command (t : Text)
  | close
  deriving DecidableEq

/-- A receiver of events. One that is dropped receives nothing more. -/
structure Subscriber where
  isLive : Bool
  received : List Event
  deriving DecidableEq

structure Clipboard where
  content : Text
  isAvailable : Bool
  /-- All that was ever copied to it. -/
  copied : List Text
  deriving DecidableEq

/-- Keys still to come, each with the time that it takes from when it is asked for, and the time at
which the key asked for arrives. -/
structure Feed where
  keys : List (Nat × KeyPress)
  arrival : Option Nat
  deriving DecidableEq

structure Size where
  columns : Nat
  rows : Nat
  deriving DecidableEq

def Size.standard : Size := ⟨80, 24⟩

def Size.width (s : Size) : Nat := max s.columns 1

def Size.height (s : Size) : Nat := max s.rows 1

inductive Error
  /-- The drawing call with this number failed. -/
  | sink (call : Nat)
  /-- A line was asked for after the editor had closed. -/
  | closed
  deriving DecidableEq

def Error.message : Error → String
  | sink call => "sink call " ++ toString call ++ " failed"
  | closed => "readline called after the editor closed"

structure Setup where
  config : Config
  presenter : Presenter
  /-- The drawing calls that fail, by their number. -/
  fails : Nat → Bool

end Session

structure Session where
  editor : Session.Editor
  size : Session.Size
  /-- How many drawing calls were made, the failed ones included. -/
  calls : Nat
  /-- The drawing calls that took effect. -/
  drawn : List Terminal.Call
  clipboard : Session.Clipboard
  subscribers : List Session.Subscriber
  now : Nat
  feed : Session.Feed
  notices : List Log.Notice
  deriving DecidableEq

namespace Session

open Terminal

abbrev Act := EStateM Error Session

def modifyEditor (f : Editor → Editor) : Act Unit := modify fun s => { s with editor := f s.editor }

def note (n : Log.Notice) : Act Unit := modify fun s => { s with notices := s.notices ++ [n] }

/-- Makes a drawing call. One that fails has no effect. -/
def draw (setup : Setup) (c : Call) : Act Unit := fun s =>
  let counted := { s with calls := s.calls + 1 }
  if setup.fails s.calls then .error (.sink s.calls) counted
  else .ok () { counted with drawn := s.drawn ++ [c] }

def drawAll (setup : Setup) : List Call → Act Unit
  | [] => pure ()
  | c :: rest => do
    draw setup c
    drawAll setup rest

def Subscriber.receive (e : Event) (r : Subscriber) : Subscriber :=
  if r.isLive then { r with received := r.received ++ [e] } else r

def publish (e : Event) : Act Unit :=
  modify fun s => { s with subscribers := s.subscribers.map (Subscriber.receive e) }

def context (setup : Setup) (s : Session) : Display.Context := ⟨setup.config.prompts, s.size.width⟩

end Session
end Promptline
