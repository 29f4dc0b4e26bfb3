import Promptline.Buffer.Reindent
import Promptline.Session.Redraw

set_option autoImplicit false

namespace Promptline.Session

open Indent Keys

def Editor.rescan (e : Editor) : Editor :=
  let frames := if e.buffer.isEmpty then [] else scan Table.standard (Text.lines e.buffer.text)
  { e with frames, readiness := if isSubmitReady frames then .ready else .collecting }

def Editor.cleared (e : Editor) : Editor :=
  Editor.rescan { e with buffer := Buffer.empty, lastCursorRow := 0, lastDisplayRow := 0 }

def showPrompt (setup : Setup) (onNewLine : Bool) : Act Unit := do
  modifyEditor fun e => { e.cleared with promptNumber := e.promptNumber + 1 }
  if onNewLine then draw setup (.write ['\n'])
  redraw setup false
  modifyEditor fun e => { e with isListening := true }

def print (setup : Setup) (t : Text) : Act Unit := drawAll setup [.write t, .flush]

def close : Act Event := do
  let s ← get
  modifyEditor fun e => { e with isClosed := true }
  note (.closed s.editor.promptNumber)
  publish .close
  pure .close

def afterTextChange (setup : Setup) : Act Unit := do
  modifyEditor fun e => { e.rescan with history := e.history.sync e.buffer.text }
  redraw setup false

def reindentLine (setup : Setup) : Act Unit := modify fun s =>
  { s with editor.buffer :=
      (s.editor.buffer.reindentLine Table.standard setup.config.indentUnit (s.context setup)).1 }

def reindentAll (setup : Setup) : Act Unit := modify fun s =>
  { s with editor.buffer :=
      s.editor.buffer.reindentAll Table.standard setup.config.indentUnit (s.context setup) }

/-- Any text but a lone space brings its line to the right depth, so a keyword moves as soon as it
is typed. -/
def insertText (setup : Setup) (t : Text) : Act Unit := do
  modifyEditor fun e => { e with buffer := e.buffer.insert t }
  if t ≠ [' '] then reindentLine setup
  afterTextChange setup

def deleteWith (setup : Setup) (delete : Buffer → Option Buffer) : Act Unit := do
  match delete (← get).editor.buffer with
  | none => pure ()
  | some b =>
    modifyEditor fun e => { e with buffer := b }
    afterTextChange setup

def unavailable : String := "no display"

def copyText (t : Text) : Act Unit := do
  if (← get).clipboard.isAvailable then
    modify fun s =>
      { s with clipboard := { s.clipboard with content := t, copied := s.clipboard.copied ++ [t] } }
  else note (.copyFailed unavailable)

def paste (setup : Setup) : Act Unit := do
  let s ← get
  if s.clipboard.isAvailable then insertText setup (Text.normalizeNewlines s.clipboard.content)
  else note (.pasteFailed unavailable)

def runSingle (setup : Setup) (key : TwiceKey) : Act Unit := do
  note (.singlePress key)
  match key with
  | .tab => do
    reindentLine setup
    afterTextChange setup
  | .copy => copyText ((← get).editor.buffer.getLine 0 true)

def runDouble (setup : Setup) (key : TwiceKey) : Act Unit := do
  note (.doublePress key)
  match key with
  | .tab => do
    reindentAll setup
    afterTextChange setup
  | .copy => copyText (← get).editor.buffer.text

def settle (setup : Setup) : Act Unit := do
  match (← get).editor.presses with
  | none => pure ()
  | some p =>
    modifyEditor fun e => { e with presses := none }
    runSingle setup p.key

def Config.window (c : Config) : TwiceKey → Nat
  | .tab => c.tabWindow
  | .copy => c.copyWindow

def pressTwiceKey (setup : Setup) (key : TwiceKey) : Act Unit := do
  let s ← get
  let (outcome, presses) := s.editor.presses.press key s.now (setup.config.window key)
  modifyEditor fun e => { e with presses }
  match outcome with
  | .double key => runDouble setup key
  | .armed (some key) => runSingle setup key
  | .armed none => pure ()

def browse (setup : Setup) (go : History → Option History) : Act Unit := do
  match go (← get).editor.history with
  | none => pure ()
  | some h =>
    modifyEditor fun e =>
      Editor.rescan { e with history := h, buffer := e.buffer.setText (h.shown?.getD []) }
    redraw setup true

def moveWith (setup : Setup) (move : Buffer → Buffer) : Act Unit := do
  modifyEditor fun e => { e with buffer := move e.buffer }
  redraw setup false

def moveUp (setup : Setup) : Act Unit := do
  if (← get).editor.buffer.isOnFirstLine then browse setup History.prev?
  else moveWith setup fun b => b.moveToPrevLine?.getD b

def moveDown (setup : Setup) : Act Unit := do
  if (← get).editor.buffer.isOnLastLine then browse setup History.next?
  else moveWith setup fun b => b.moveToNextLine?.getD b

def clearScreen (setup : Setup) : Act Unit := do
  drawAll setup [.cursorTo 0 (some 0), .clearToEnd]
  modifyEditor fun e => { e with lastCursorRow := 0 }
  redraw setup false

def recordSubmission (setup : Setup) : Act Unit := do
  let e := (← get).editor
  let text := e.buffer.text
  let history := e.history.commit text
  modifyEditor fun e => { e with history }
  note (.historyCommit history.entries.length (e.history.accepts text))
  redraw setup true
  drawAll setup [.write ['\n'], .flush]
  note (.submit (Text.countLines text) e.promptNumber)

/-- Forgets a text that was recorded and sends it to the subscribers. -/
def handOver (t : Text) : Act Event := do
  modifyEditor fun e => { e.cleared with isListening := false }
  publish (.command t)
  pure (.command t)

def submit (setup : Setup) : Act Event := do
  let text := (← get).editor.buffer.text
  recordSubmission setup
  handOver text

/-- Drops the text for a fresh prompt; with nothing to drop, closes the editor. -/
def interrupt (setup : Setup) : Act (Option Event) := do
  redraw setup true
  let e := (← get).editor
  if e.buffer.isEmpty && e.frames.isEmpty then some <$> close
  else
    note (.interrupt e.promptNumber)
    modifyEditor fun e => { e with history := e.history.sync e.buffer.text }
    showPrompt setup true
    pure none

def enter (setup : Setup) : Act (Option Event) := do
  if (← get).editor.readiness = .ready then some <$> submit setup
  else
    insertText setup ['\n']
    pure none

def runAction (setup : Setup) : Action → Act (Option Event)
  | .enter => enter setup
  | .insertNewline => insertText setup ['\n'] *> pure none
  | .insert t => insertText setup t *> pure none
  | .tab | .copy => pure none
  | .paste => paste setup *> pure none
  | .up => moveUp setup *> pure none
  | .down => moveDown setup *> pure none
  | .left => moveWith setup (fun b => b.moveLeft?.getD b) *> pure none
  | .right => moveWith setup (fun b => b.moveRight?.getD b) *> pure none
  | .lineStart => moveWith setup Buffer.moveToLineStart *> pure none
  | .lineEnd => moveWith setup Buffer.moveToLineEnd *> pure none
  | .backspace => deleteWith setup Buffer.deleteBefore? *> pure none
  | .delete => deleteWith setup Buffer.deleteAfter? *> pure none
  | .clearScreen => clearScreen setup *> pure none
  | .interrupt => interrupt setup
  | .exit => some <$> close

/-- Any other action settles a pending press first. -/
def applyAction (setup : Setup) : Action → Act (Option Event)
  | .tab => pressTwiceKey setup .tab *> pure none
  | .copy => pressTwiceKey setup .copy *> pure none
  | action => do
    settle setup
    runAction setup action

def handleKey (setup : Setup) (p : KeyPress) : Act (Option Event) := do
  if (← get).editor.isListening then
    match Action.ofPress? p with
    | none => pure none
    | some action =>
      note (.keyPress action)
      applyAction setup action
  else pure none

end Promptline.Session
