import Promptline.Session.Handlers

set_option autoImplicit false

namespace Promptline.Session

open Keys

/-- Asks for the next key, which takes `delay` from the first time that it is asked for. -/
def arrivalTime (delay : Nat) (s : Session) : Nat := s.feed.arrival.getD (s.now + delay)

def passTime (time : Nat) : Act Unit := modify fun s => { s with now := max s.now time }

def await (setup : Setup) (arrival : Nat) : Act Unit := do
  modify fun s => { s with feed.arrival := some arrival }
  match (← get).editor.presses.deadline? with
  | none => pure ()
  | some deadline =>
    if deadline < arrival then
      passTime deadline
      settle setup
  passTime arrival

def takeKey (setup : Setup) (delay : Nat) (rest : List (Nat × KeyPress)) : Act Unit := do
  await setup (arrivalTime delay (← get))
  modify fun s => { s with feed := ⟨rest, none⟩ }

def readKeys (setup : Setup) : List (Nat × KeyPress) → Act Event
  | [] => close
  | (delay, press) :: rest => do
    takeKey setup delay rest
    match ← handleKey setup press with
    | some event => pure event
    | none => readKeys setup rest

def readline (setup : Setup) : Act Event := do
  let s ← get
  if s.editor.isClosed then throw .closed
  readKeys setup s.feed.keys

end Promptline.Session
