import Promptline.Text.Basic
import Promptline.Text.Uppercase

set_option autoImplicit false

namespace Promptline.Keys

inductive KeyName
  | enter
  | tab
  | up
  | down
  | left
  | right
  | home
  | endKey
  | backspace
  | delete
  | escape
  | char (c : Char)
  deriving DecidableEq

structure Key where
  name : KeyName
  ctrl : Bool
  shift : Bool
  deriving DecidableEq

/-- One event: the text it types, if any, and the key that was pressed, if it is a known one. Pasted
text comes without a key. -/
structure KeyPress where
  text : Option Text
  key : Option Key
  deriving DecidableEq

namespace KeyPress

def ofName (name : KeyName) : KeyPress := ⟨none, some ⟨name, false, false⟩⟩

def ofCtrl (c : Char) : KeyPress := ⟨none, some ⟨.char c, true, false⟩⟩

def ofChar (c : Char) : KeyPress := ⟨some [c], some ⟨.char c, false, Text.isUppercase c⟩⟩

def ofText (t : Text) : KeyPress := ⟨some t, none⟩

def typing (t : Text) : List KeyPress :=
  t.map fun c => if c = '\n' then ofName .enter else ofChar c

end KeyPress

inductive KeyCode
  | backspace
  | enter
  | left
  | right
  | up
  | down
  | home
  | endKey
  | tab
  | backTab
  | delete
  | escape
  | char (c : Char)
  | other
  deriving DecidableEq

inductive Phase
  | pressed
  | repeated
  | released
  deriving DecidableEq

structure Modifiers where
  ctrl : Bool
  shift : Bool
  deriving DecidableEq

inductive TerminalEvent
  | key (code : KeyCode) (mods : Modifiers) (phase : Phase)
  | paste (t : Text)
  | focusGained
  | focusLost
  | mouse
  | resize (columns rows : Nat)
  deriving DecidableEq

namespace KeyPress

/-- With control a letter loses its case; without it, it types itself, whatever shift says. -/
def ofCode? (code : KeyCode) (mods : Modifiers) : Option KeyPress :=
  let named (name : KeyName) : Option KeyPress := some ⟨none, some ⟨name, mods.ctrl, mods.shift⟩⟩
  match code with
  | .char c => if mods.ctrl then named (.char c.toLower) else some (ofChar c)
  | .enter => named .enter
  | .tab | .backTab => named .tab
  | .up => named .up
  | .down => named .down
  | .left => named .left
  | .right => named .right
  | .home => named .home
  | .endKey => named .endKey
  | .backspace => named .backspace
  | .delete => named .delete
  | .escape => named .escape
  | .other => none

def ofEvent? : TerminalEvent → Option KeyPress
  | .key _ _ .released => none
  | .key code mods _ => ofCode? code mods
  | .paste t => some (ofText t)
  | .focusGained | .focusLost | .mouse | .resize _ _ => none

end KeyPress
end Promptline.Keys
