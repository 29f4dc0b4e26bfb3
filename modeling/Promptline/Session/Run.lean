import Promptline.Session.Readline

set_option autoImplicit false

namespace Promptline.Session

open Indent Keys

def Editor.initial (config : Config) : Editor where
  buffer := Buffer.empty
  frames := []
  readiness := .collecting
  history := History.new.withCap config.historyCap
  presses := none
  isListening := true
  isClosed := false
  promptNumber := 0
  lastCursorRow := 0
  lastDisplayRow := 0

def initial (setup : Setup) (size : Size) (clipboard : Text) (keys : List (Nat × KeyPress)) :
    Session where
  editor := Editor.initial setup.config
  size := size
  calls := 0
  drawn := []
  clipboard := ⟨clipboard, true, []⟩
  subscribers := []
  now := 0
  feed := ⟨keys, none⟩
  notices := []

/-- The first prompt is shown where the terminal cursor is. There is no session if that fails. -/
def create (setup : Setup) (size : Size) (clipboard : Text) (keys : List (Nat × KeyPress)) :
    Except Error Session :=
  match showPrompt setup false (initial setup size clipboard keys) with
  | .ok _ s => .ok s
  | .error e _ => .error e

inductive Request
  | key (press : KeyPress)
  | readline
  | prompt
  | print (t : Text)
  | subscribe
  /-- Drops a receiver; there may be none with this number. -/
  | unsubscribe (index : Nat)
  | resize (size : Size)
  | wait (time : Nat)
  | setClipboard (t : Text)
  | setAvailable (isAvailable : Bool)
  deriving DecidableEq

def perform (setup : Setup) : Request → Act (Option Event)
  | .key press => handleKey setup press
  | .readline => some <$> readline setup
  | .prompt => showPrompt setup true *> pure none
  | .print t => print setup t *> pure none
  | .subscribe =>
    modify (fun s => { s with subscribers := s.subscribers ++ [⟨true, []⟩] }) *> pure none
  | .unsubscribe index =>
    modify (fun s => { s with
      subscribers := s.subscribers.modify index fun r => { r with isLive := false } }) *> pure none
  | .resize size => modify (fun s => { s with size }) *> pure none
  | .wait time => modify (fun s => { s with now := s.now + time }) *> pure none
  | .setClipboard t => modify (fun s => { s with clipboard.content := t }) *> pure none
  | .setAvailable isAvailable =>
    modify (fun s => { s with clipboard.isAvailable := isAvailable }) *> pure none

inductive Reply
  | done
  | event (e : Event)
  | failed (e : Error)
  deriving DecidableEq

/-- A failed request leaves the session as it was when it failed. -/
def step (setup : Setup) (r : Request) (s : Session) : Reply × Session :=
  match perform setup r s with
  | .ok none s' => (.done, s')
  | .ok (some e) s' => (.event e, s')
  | .error e s' => (.failed e, s')

def run (setup : Setup) : List Request → Session → List Reply × Session
  | [], s => ([], s)
  | r :: rest, s =>
    let (reply, s') := step setup r s
    let (replies, last) := run setup rest s'
    (reply :: replies, last)

end Promptline.Session
