/-!
Tells a key that is pressed once from one that is pressed twice within a window. At most one press
is pending; its owner takes it as a single press when the deadline passes or anything else happens
first. Times are in milliseconds.
-/

set_option autoImplicit false

namespace Promptline.Keys

inductive TwiceKey
  | tab
  | copy
  deriving DecidableEq

def TwiceKey.name : TwiceKey → String
  | .tab => "Tab"
  | .copy => "Copy"

structure Pending where
  key : TwiceKey
  deadline : Nat
  deriving DecidableEq

abbrev DoublePress := Option Pending

namespace DoublePress

inductive Outcome
  | double (key : TwiceKey)
  /-- The press is pending now. A pending press that it replaces is due as a single one. -/
  | armed (flushed : Option TwiceKey)
  deriving DecidableEq

def press (d : DoublePress) (key : TwiceKey) (now window : Nat) : Outcome × DoublePress :=
  match d with
  | none => (.armed none, some ⟨key, now + window⟩)
  | some p =>
    if p.key = key ∧ now ≤ p.deadline then (.double key, none)
    else (.armed (some p.key), some ⟨key, now + window⟩)

def pendingKey? (d : DoublePress) : Option TwiceKey := d.map Pending.key

def deadline? (d : DoublePress) : Option Nat := d.map Pending.deadline

end DoublePress
end Promptline.Keys
