import Promptline.Text.Basic

set_option autoImplicit false

namespace Promptline

namespace History

structure Entry where
  committed : Text
  current : Text
  /-- The submitted text when it has more than one line. -/
  block : Option Text
  deriving DecidableEq

namespace Entry

def blank : Entry := ⟨[], [], none⟩

def ofSubmission (t : Text) : Entry := ⟨t, t, if t.contains '\n' then some t else none⟩

def reverted (e : Entry) : Entry := { e with current := e.committed }

end Entry
end History

/-- `index` is the slot shown, 0 being the newest. No slot at `watermark` or beyond has been edited
since the last submission. -/
structure History where
  entries : List History.Entry
  index : Nat
  watermark : Nat
  /-- How many slots a submission keeps. -/
  cap : Option Nat
  deriving DecidableEq

namespace History

def new : History := ⟨[Entry.blank], 0, 0, none⟩

/-- The slot being typed into and one submission are always kept. -/
def withCap (h : History) (cap : Option Nat) : History := { h with cap := cap.map (max · 2) }

def slot? (h : History) (index : Nat) : Option Entry := h.entries[index]?

def shown? (h : History) : Option Text := (h.slot? h.index).map Entry.current

def sync (h : History) (t : Text) : History :=
  { h with
    entries := h.entries.modify h.index fun e => { e with current := t }
    watermark := max h.watermark (h.index + 1) }

def accepts (h : History) (t : Text) : Bool :=
  !Text.isBlank t && (h.slot? 1).map Entry.committed != some t

/-- Drops all edits of old entries and goes back to the newest slot. An accepted text takes that
slot, with a fresh one above it. -/
def commit (h : History) (t : Text) : History :=
  let reverted := h.entries.map Entry.reverted
  let entries :=
    if h.accepts t then
      let grown := Entry.blank :: Entry.ofSubmission t :: reverted.tail
      match h.cap with
      | none => grown
      | some cap => grown.take cap
    else reverted
  { h with entries, index := 0, watermark := 0 }

def prev? (h : History) : Option History :=
  if h.index + 1 < h.entries.length then some { h with index := h.index + 1 } else none

def next? (h : History) : Option History :=
  if h.index = 0 then none
  else some { h with index := min (h.index - 1) (h.entries.length - 1) }

end History
end Promptline
