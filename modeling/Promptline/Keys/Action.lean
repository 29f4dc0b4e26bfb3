import Promptline.Keys.Press
import Promptline.Text.Lines

set_option autoImplicit false

namespace Promptline.Keys

inductive Action
  /-- Submits a complete text, otherwise breaks the line. -/
  | enter
  | insertNewline
  | insert (t : Text)
  /-- Reindents the line; pressed twice, the whole text. -/
  | tab
  /-- Copies the line; pressed twice, the whole text. -/
  | copy
  | paste
  | up
  | down
  | left
  | right
  | lineStart
  | lineEnd
  | backspace
  | delete
  | clearScreen
  | interrupt
  | exit
  deriving DecidableEq

namespace Action

def name : Action → String
  | .enter => "Enter"
  | .insertNewline => "InsertNewline"
  | .insert _ => "Insert"
  | .tab => "Tab"
  | .copy => "Copy"
  | .paste => "Paste"
  | .up => "Up"
  | .down => "Down"
  | .left => "Left"
  | .right => "Right"
  | .lineStart => "LineStart"
  | .lineEnd => "LineEnd"
  | .backspace => "Backspace"
  | .delete => "Delete"
  | .clearScreen => "ClearScreen"
  | .interrupt => "Interrupt"
  | .exit => "Exit"

def ofCtrl? : KeyName → Option Action
  | .char 'a' => some .lineStart
  | .char 'e' => some .lineEnd
  | .char 'y' => some .copy
  | .char 'v' => some .paste
  | .char 'c' => some .interrupt
  | .char 'd' => some .exit
  | .char 'n' => some .insertNewline
  | .char 'l' => some .clearScreen
  | _ => none

def ofText? : Option Text → Option Action
  | none | some [] => none
  | some t => some (.insert (Text.normalizeNewlines t))

/-- The keys without control. Only a character key leaves it to the text what happens. -/
def ofPlain? (name : KeyName) (text : Option Text) : Option Action :=
  match name with
  | .enter => some .enter
  | .tab => some .tab
  | .up => some .up
  | .down => some .down
  | .left => some .left
  | .right => some .right
  | .home => some .lineStart
  | .endKey => some .lineEnd
  | .backspace => some .backspace
  | .delete => some .delete
  | .escape => none
  | .char _ => ofText? text

def ofPress? (p : KeyPress) : Option Action :=
  match p.key with
  | none => ofText? p.text
  | some key => if key.ctrl then ofCtrl? key.name else ofPlain? key.name p.text

end Action
end Promptline.Keys
