import Promptline.Proofs.Session.Outcome

/-!
A proof principle for sessions. What keys and timers do to a session comes down to a few changes, each
of which may fail while it draws; a property that withstands these changes holds on after every key,
every timer and every `readline`, wherever that fails. The sessions to which this applies are the
reachable ones.
-/

set_option autoImplicit false

namespace Promptline.Session

open Keys

def Setup.plain : Setup := ⟨Config.standard, Presenter.plain, fun _ => false⟩

def Setup.reliable (setup : Setup) : Setup := { setup with fails := fun _ => false }

def Setup.failing (calls : List Nat) : Setup := { Setup.plain with fails := calls.contains }

def withBuffer (s : Session) (b : Buffer) : Session :=
  { s with editor := { s.editor with buffer := b } }

def followed (s : Session) : Session :=
  { s with editor := { s.editor.rescan with history := s.editor.history.sync s.editor.buffer.text } }

def browsed (s : Session) (h : History) : Session :=
  { s with editor := Editor.rescan { s.editor with
      history := h, buffer := s.editor.buffer.setText (h.shown?.getD []) } }

inductive Edit (setup : Setup) (Typed : Text → Prop) (s : Session) : Buffer → Prop
  | insert {t : Text} : Typed t → Edit setup Typed s (s.editor.buffer.insert t)
  | insertReindented {t : Text} : Typed t →
      Edit setup Typed s ((s.editor.buffer.insert t).reindentLine Indent.Table.standard
        setup.config.indentUnit (s.context setup)).1
  | reindentLine : Edit setup Typed s (s.editor.buffer.reindentLine Indent.Table.standard
      setup.config.indentUnit (s.context setup)).1
  | reindentAll : Edit setup Typed s (s.editor.buffer.reindentAll Indent.Table.standard
      setup.config.indentUnit (s.context setup))
  | deleteBefore {b : Buffer} : s.editor.buffer.deleteBefore? = some b → Edit setup Typed s b
  | deleteAfter {b : Buffer} : s.editor.buffer.deleteAfter? = some b → Edit setup Typed s b

/-- A property of sessions that timers preserve, and all keys that neither browse nor end a prompt. -/
structure EditInvariant (setup : Setup) (Typed : Text → Prop) (P : Session → Prop) : Prop where
  lineFeed : Typed ['\n']
  pasted {s : Session} : P s → Typed (Text.normalizeNewlines s.clipboard.content)
  armed {s : Session} : P s → s.editor.presses ≠ none → s.editor.isListening = true
  noted {s : Session} (n : Log.Notice) : P s → P { s with notices := s.notices ++ [n] }
  pressed {s : Session} (d : DoublePress) : P s → s.editor.isListening = true →
    P { s with editor := { s.editor with presses := d } }
  copied {s : Session} {t : Text} : P s → t ⊆ s.editor.buffer.text →
    P { s with clipboard := { s.clipboard with content := t, copied := s.clipboard.copied ++ [t] } }
  redrawn {s : Session} {b : Buffer} (jump : Bool) : P s → s.editor.isListening = true →
    b.text = s.editor.buffer.text → Ends (redraw setup jump) (s.withBuffer b) (fun _ => P) P
  edited {s : Session} {b : Buffer} : P s → s.editor.isListening = true → Edit setup Typed s b →
    Ends (afterTextChange setup) (s.withBuffer b) (fun _ => P) P
  cleared {s : Session} : P s → s.editor.isListening = true → Ends (clearScreen setup) s (fun _ => P) P

/-- A property of sessions that keys and timers preserve. Where they end in an event, `R` holds of the
event and the session. -/
structure Invariant (setup : Setup) (Typed : Text → Prop) (P : Session → Prop)
    (R : Event → Session → Prop) : Prop extends EditInvariant setup Typed P where
  passed {s : Session} (now : Nat) (feed : Feed) : P s → P { s with now, feed }
  synced {s : Session} : P s → s.editor.isListening = true →
    P { s with editor :=
      { s.editor with history := s.editor.history.sync s.editor.buffer.text } }
  browsed {s : Session} {h : History} : P s → s.editor.isListening = true →
    s.editor.history.prev? = some h ∨ s.editor.history.next? = some h →
    Ends (redraw setup true) (s.browsed h) (fun _ => P) P
  submitted {s : Session} : P s → s.editor.isListening = true → s.editor.presses = none →
    s.editor.readiness = .ready → Ends (submit setup) s R P
  prompted {s : Session} : P s → Ends (showPrompt setup true) s (fun _ => P) P
  closed {s : Session} : P s → Ends close s R P

def Edits (s : Session) : Action → Prop
  | .up | .down | .interrupt | .exit => False
  | .enter => s.editor.readiness ≠ .ready
  | _ => True

def Answered (P : Session → Prop) (R : Event → Session → Prop) : Option Event → Session → Prop
  | none => P
  | some e => R e

def TypesOnly (Typed : Text → Prop) (p : KeyPress) : Prop :=
  ∀ t, Action.ofPress? p = some (.insert t) → Typed t

variable {s : Session}

theorem splitLines_subset {t l : Text} (h : l ∈ Text.splitLines t) : l ⊆ t := by
  intro c hc
  rw [← Text.splitLines_flatten t]
  exact List.mem_flatten.mpr ⟨l, h, hc⟩

theorem getLine_subset (b : Buffer) (offset : Int) (ignoreNewline : Bool) :
    b.getLine offset ignoreNewline ⊆ b.text := by
  unfold Buffer.getLine
  dsimp only
  split
  · exact List.nil_subset _
  · cases h : (Text.splitLines b.text)[min (b.lineIndex + offset).toNat
        ((Text.splitLines b.text).length - 1)]? with
    | none => exact List.nil_subset _
    | some l => exact splitLines_subset (List.mem_of_getElem? h)

theorem ends_afterTextChange (setup : Setup) :
    Ends (afterTextChange setup) s (fun _ => Redrew s.followed) (Redrew s.followed) := by
  rw [afterTextChange, ends_bind, ends_modifyEditor]
  exact ends_redraw setup false

def atPrompt (s : Session) : Session :=
  { s with editor := { s.editor.cleared with promptNumber := s.editor.promptNumber + 1 } }

def listening (s : Session) : Session := { s with editor := { s.editor with isListening := true } }

/-- The text is forgotten before the first call that can fail. -/
theorem ends_showPrompt_redrew (setup : Setup) (onNewLine : Bool) :
    Ends (showPrompt setup onNewLine) s
      (fun _ s' => ∃ a, Redrew s.atPrompt a ∧ s' = a.listening) (Redrew s.atPrompt) := by
  have hshown {a : Session} (ha : Redrew s.atPrompt a) : Ends (redraw setup false) a
      (fun _ b => ∃ b', Redrew s.atPrompt b' ∧ b.listening = b'.listening) (Redrew s.atPrompt) :=
    (ends_redraw setup false).mono (fun _ b hb => ⟨b, ha.trans hb, rfl⟩) fun _ hb => ha.trans hb
  have hcleared : Redrew s.atPrompt s.atPrompt := (Drew.refl _).redrew
  simp only [showPrompt, ends_bind, ends_modifyEditor]
  split
  · simp only [ends_bind, ends_modifyEditor]
    exact (ends_draw setup _).mono (fun _ a ha => hshown ha.redrew) fun _ ha => ha.redrew
  · simp only [ends_bind, ends_modifyEditor]
    exact hshown hcleared

theorem ends_clearScreen (setup : Setup) :
    Ends (clearScreen setup) s (fun _ => Redrew s) (Redrew s) := by
  simp only [clearScreen, ends_bind, ends_modifyEditor]
  refine (ends_drawAll setup _).mono (fun _ a ha => ?_) fun _ ha => ha.redrew
  have hreset := ha.redrew.trans (redrew_with rfl 0 a.editor.lastDisplayRow)
  exact (ends_redraw setup false).imp hreset.trans

theorem ends_runSingle_frame (setup : Setup) (key : TwiceKey) :
    Ends (runSingle setup key) s (fun _ s' => s'.editor.isListening = s.editor.isListening ∧
      s'.editor.presses = s.editor.presses) fun _ => True := by
  cases key with
  | tab =>
    refine (ends_afterTextChange setup).mono (fun _ s' h => ?_) fun _ _ => trivial
    exact ⟨h.isListening, h.presses⟩
  | copy =>
    change Ends (copyText _) _ _ _
    rw [copyText, ends_bind, ends_get]
    split <;> exact ⟨rfl, rfl⟩

namespace EditInvariant

variable {setup : Setup} {Typed : Text → Prop} {P : Session → Prop}

theorem insertText (inv : EditInvariant setup Typed P) (h : P s) (hl : s.editor.isListening = true)
    {t : Text} (ht : Typed t) : Ends (insertText setup t) s (fun _ => P) P := by
  rw [Session.insertText, ends_bind, ends_modifyEditor]
  split
  · have hedit := inv.edited h hl (Edit.insertReindented ht)
    exact hedit
  · have hedit := inv.edited h hl (Edit.insert ht)
    exact hedit

theorem deleteWith (inv : EditInvariant setup Typed P) (h : P s) (hl : s.editor.isListening = true)
    {delete : Buffer → Option Buffer}
    (hd : ∀ b, delete s.editor.buffer = some b → Edit setup Typed s b) :
    Ends (deleteWith setup delete) s (fun _ => P) P := by
  rw [Session.deleteWith, ends_bind, ends_get]
  cases hb : delete s.editor.buffer with
  | none => exact h
  | some b => exact inv.edited h hl (hd b hb)

theorem copyText (inv : EditInvariant setup Typed P) (h : P s) {t : Text}
    (ht : t ⊆ s.editor.buffer.text) : Ends (copyText t) s (fun _ => P) P := by
  rw [Session.copyText, ends_bind, ends_get]
  split
  · exact inv.copied h ht
  · exact inv.noted _ h

theorem runSingle (inv : EditInvariant setup Typed P) (h : P s) (hl : s.editor.isListening = true)
    (key : TwiceKey) : Ends (runSingle setup key) s (fun _ => P) P := by
  have hn := inv.noted (.singlePress key) h
  cases key with
  | tab =>
    have hedit := inv.edited hn hl Edit.reindentLine
    exact hedit
  | copy => exact inv.copyText hn (getLine_subset _ 0 true)

theorem runDouble (inv : EditInvariant setup Typed P) (h : P s) (hl : s.editor.isListening = true)
    (key : TwiceKey) : Ends (runDouble setup key) s (fun _ => P) P := by
  have hn := inv.noted (.doublePress key) h
  cases key with
  | tab =>
    have hedit := inv.edited hn hl Edit.reindentAll
    exact hedit
  | copy => exact inv.copyText hn (List.Subset.refl _)

theorem settle (inv : EditInvariant setup Typed P) (h : P s) :
    Ends (settle setup) s (fun _ s' => P s' ∧ s'.editor.isListening = s.editor.isListening ∧
      s'.editor.presses = none) P := by
  rw [Session.settle, ends_bind, ends_get]
  cases hp : s.editor.presses with
  | none => exact ⟨h, rfl, hp⟩
  | some p =>
    have hl := inv.armed h (by simp [hp])
    have hd := inv.pressed none h hl
    have hboth := (inv.runSingle hd hl p.key).and (ends_runSingle_frame setup p.key)
    exact hboth.mono (fun _ _ hb => hb) fun _ hb => hb.1

theorem pressTwiceKey (inv : EditInvariant setup Typed P) (h : P s)
    (hl : s.editor.isListening = true) (key : TwiceKey) :
    Ends (pressTwiceKey setup key) s (fun _ => P) P := by
  rw [Session.pressTwiceKey, ends_bind, ends_get]
  have hd := inv.pressed (s.editor.presses.press key s.now (setup.config.window key)).2 h hl
  simp only [ends_bind, ends_modifyEditor]
  cases ho : (s.editor.presses.press key s.now (setup.config.window key)).1 with
  | double k => exact inv.runDouble hd hl k
  | armed flushed =>
    cases flushed with
    | none => exact hd
    | some k => exact inv.runSingle hd hl k

theorem moveWith (inv : EditInvariant setup Typed P) (h : P s) (hl : s.editor.isListening = true)
    {move : Buffer → Buffer} (hm : (move s.editor.buffer).text = s.editor.buffer.text) :
    Ends (moveWith setup move) s (fun _ => P) P :=
  inv.redrawn false h hl hm

theorem runAction (inv : EditInvariant setup Typed P) (h : P s) (hl : s.editor.isListening = true)
    {action : Action} (he : Edits s action) (ht : ∀ t, action = .insert t → Typed t) :
    Ends (runAction setup action) s (fun e s' => e = none ∧ P s') P := by
  have hdone {m : Act Unit} (hm : Ends m s (fun _ => P) P) :
      Ends (m *> pure none) s (fun (e : Option Event) s' => e = none ∧ P s') P :=
    (ends_seqRight _ _ _).mpr (hm.mono (fun _ _ hs => ⟨rfl, hs⟩) fun _ hs => hs)
  cases action with
  | enter =>
    change Ends (enter setup) _ _ _
    rw [enter, ends_bind, ends_get, if_neg he, ends_bind]
    exact (inv.insertText h hl inv.lineFeed).mono (fun _ _ hs => ⟨rfl, hs⟩) fun _ hs => hs
  | insertNewline => exact hdone (inv.insertText h hl inv.lineFeed)
  | insert t => exact hdone (inv.insertText h hl (ht t rfl))
  | tab => exact ⟨rfl, h⟩
  | copy => exact ⟨rfl, h⟩
  | paste =>
    refine hdone ?_
    rw [paste, ends_bind, ends_get]
    split
    · exact inv.insertText h hl (inv.pasted h)
    · exact inv.noted _ h
  | up => exact he.elim
  | down => exact he.elim
  | left => exact hdone (inv.moveWith h hl (Buffer.getD_text fun _ => Buffer.moveLeft?_text))
  | right => exact hdone (inv.moveWith h hl (Buffer.getD_text fun _ => Buffer.moveRight?_text))
  | lineStart => exact hdone (inv.moveWith h hl (Buffer.moveToLineStart_text _))
  | lineEnd => exact hdone (inv.moveWith h hl (Buffer.moveToLineEnd_text _))
  | backspace => exact hdone (inv.deleteWith h hl fun _ => .deleteBefore)
  | delete => exact hdone (inv.deleteWith h hl fun _ => .deleteAfter)
  | clearScreen => exact hdone (inv.cleared h hl)
  | interrupt => exact he.elim
  | exit => exact he.elim

end EditInvariant

namespace Invariant

variable {setup : Setup} {Typed : Text → Prop} {P : Session → Prop} {R : Event → Session → Prop}

theorem browse (inv : Invariant setup Typed P R) (h : P s) (hl : s.editor.isListening = true)
    {go : History → Option History}
    (hgo : ∀ h', go s.editor.history = some h' →
      s.editor.history.prev? = some h' ∨ s.editor.history.next? = some h') :
    Ends (browse setup go) s (fun _ => P) P := by
  rw [Session.browse, ends_bind, ends_get]
  cases hb : go s.editor.history with
  | none => exact h
  | some h' => exact inv.browsed h hl (hgo h' hb)

theorem moveUp (inv : Invariant setup Typed P R) (h : P s) (hl : s.editor.isListening = true) :
    Ends (moveUp setup) s (fun _ => P) P := by
  rw [Session.moveUp, ends_bind, ends_get]
  split
  · exact inv.browse h hl fun _ => Or.inl
  · exact inv.moveWith h hl (Buffer.getD_text fun _ => Buffer.moveToPrevLine?_text)

theorem moveDown (inv : Invariant setup Typed P R) (h : P s) (hl : s.editor.isListening = true) :
    Ends (moveDown setup) s (fun _ => P) P := by
  rw [Session.moveDown, ends_bind, ends_get]
  split
  · exact inv.browse h hl fun _ => Or.inr
  · exact inv.moveWith h hl (Buffer.getD_text fun _ => Buffer.moveToNextLine?_text)

theorem enter (inv : Invariant setup Typed P R) (h : P s) (hl : s.editor.isListening = true)
    (hp : s.editor.presses = none) : Ends (enter setup) s (Answered P R) P := by
  rw [Session.enter, ends_bind, ends_get]
  split
  · rename_i hr
    exact (ends_map _ _ _).mpr (inv.submitted h hl hp hr)
  · exact (ends_bind _ _ _).mpr (inv.insertText h hl inv.lineFeed)

theorem interrupt (inv : Invariant setup Typed P R) (h : P s) (hl : s.editor.isListening = true) :
    Ends (interrupt setup) s (Answered P R) P := by
  rw [Session.interrupt, ends_bind]
  have hdrawn := (inv.redrawn true h hl rfl).and (ends_redraw setup true)
  refine hdrawn.mono (fun _ s' hs => ?_) fun _ hs => hs.1
  simp only [ends_bind, ends_get]
  split
  · exact (ends_map _ _ _).mpr (inv.closed hs.1)
  · have hn := inv.noted (.interrupt s'.editor.promptNumber) hs.1
    have hsync := inv.synced hn (hs.2.isListening.trans hl)
    simp only [ends_bind, ends_note, ends_modifyEditor]
    exact inv.prompted hsync

theorem runAction (inv : Invariant setup Typed P R) (h : P s) (hl : s.editor.isListening = true)
    (hp : s.editor.presses = none) (action : Action) (ht : ∀ t, action = .insert t → Typed t) :
    Ends (runAction setup action) s (Answered P R) P := by
  have hedit (he : Edits s action) : Ends (Session.runAction setup action) s (Answered P R) P := by
    refine (inv.toEditInvariant.runAction h hl he ht).mono (fun e s' hs => ?_) fun _ hs => hs
    rw [hs.1]
    exact hs.2
  cases action with
  | enter => exact inv.enter h hl hp
  | up => exact (ends_seqRight _ _ _).mpr (inv.moveUp h hl)
  | down => exact (ends_seqRight _ _ _).mpr (inv.moveDown h hl)
  | interrupt => exact inv.interrupt h hl
  | exit => exact (ends_map _ _ _).mpr (inv.closed h)
  | _ => exact hedit trivial

theorem applyAction (inv : Invariant setup Typed P R) (h : P s) (hl : s.editor.isListening = true)
    (action : Action) (ht : ∀ t, action = .insert t → Typed t) :
    Ends (applyAction setup action) s (Answered P R) P := by
  refine ends_applyAction_of_settled (inv.pressTwiceKey h hl) ?_
  refine (inv.settle h).mono (fun _ s' hs => ?_) fun _ hs => hs
  exact inv.runAction hs.1 (hs.2.1.trans hl) hs.2.2 action ht

theorem handleKey (inv : Invariant setup Typed P R) (h : P s) {p : KeyPress}
    (hp : TypesOnly Typed p) : Ends (handleKey setup p) s (Answered P R) P := by
  rw [Session.handleKey, ends_bind, ends_get]
  split
  · rename_i hl
    cases ha : Action.ofPress? p with
    | none => exact h
    | some action =>
      exact inv.applyAction (inv.noted (.keyPress action) h) hl action
        fun t ht => hp t (by rw [ha, ht])
  · exact h

theorem takeKey (inv : Invariant setup Typed P R) (h : P s) (delay : Nat)
    (rest : List (Nat × KeyPress)) : Ends (takeKey setup delay rest) s (fun _ => P) P := by
  have htaken {s : Session} (h : P s) (now : Nat) : P { s with now, feed := ⟨rest, none⟩ } :=
    inv.passed now _ h
  have hasked (now : Nat) : P { s with now, feed.arrival := some (arrivalTime delay s) } :=
    inv.passed now _ h
  simp only [Session.takeKey, await, passTime, ends_bind, ends_get, ends_modify]
  split
  · exact htaken h _
  · split
    · simp only [ends_bind, ends_modify]
      exact (inv.settle (hasked _)).mono (fun _ _ hs => htaken hs.1 _) fun _ hs => hs
    · exact htaken h _

theorem readKeys (inv : Invariant setup Typed P R) {keys : List (Nat × KeyPress)}
    (hk : ∀ k ∈ keys, TypesOnly Typed k.2) (h : P s) :
    Ends (readKeys setup keys) s R P := by
  induction keys generalizing s with
  | nil => exact inv.closed h
  | cons k rest ih =>
    obtain ⟨delay, press⟩ := k
    rw [Session.readKeys, ends_bind]
    refine (inv.takeKey h delay rest).mono (fun _ s₁ h₁ => ?_) fun _ h => h
    rw [ends_bind]
    refine (inv.handleKey h₁ (hk _ List.mem_cons_self)).mono (fun e s₂ h₂ => ?_) fun _ h => h
    cases e with
    | none => exact ih (fun k hk' => hk k (List.mem_cons_of_mem _ hk')) h₂
    | some e => exact h₂

theorem readline (inv : Invariant setup Typed P R) (hk : ∀ k ∈ s.feed.keys, TypesOnly Typed k.2)
    (h : P s) : Ends (readline setup) s R P := by
  rw [Session.readline, ends_bind, ends_get]
  split
  · exact (ends_bind _ _ _).mpr h
  · exact inv.readKeys hk h

end Invariant

/-- The sessions to which requests and timers lead from a created one, whatever fails on the way. -/
inductive Reachable (setup : Setup) : Session → Prop
  | created {size : Size} {clipboard : Text} {keys : List (Nat × KeyPress)} {s : Session} :
      create setup size clipboard keys = .ok s → Reachable setup s
  | requested {s : Session} (r : Request) : Reachable setup s → Reachable setup (step setup r s).2
  | expired {s : Session} : Reachable setup s → Reachable setup (ending (settle setup) s)

theorem Reachable.run {setup : Setup} (h : Reachable setup s) (rs : List Request) :
    Reachable setup (run setup rs s).2 := by
  induction rs generalizing s with
  | nil => exact h
  | cons r rest ih => exact ih (h.requested r)

/-- A property of the editor that keys, timers and a first prompt preserve holds of every reachable
session. -/
theorem Reachable.of_invariant {setup : Setup} {P : Session → Prop}
    (inv : Invariant setup (fun _ => True) P fun _ => P)
    (hkeep : ∀ {a b : Session}, P a → b.editor = a.editor → P b)
    (hcreated : ∀ {size : Size} {clipboard : Text} {keys : List (Nat × KeyPress)} {s : Session},
      create setup size clipboard keys = .ok s → P s)
    (h : Reachable setup s) : P s := by
  have hanswered {e : Option Event} {s' : Session} (he : Answered P (fun _ => P) e s') : P s' := by
    cases e <;> exact he
  have hperform {s : Session} (hs : P s) (r : Request) : Ends (perform setup r) s (fun _ => P) P := by
    cases r with
    | key p => exact (inv.handleKey hs fun _ _ => trivial).mono (fun _ _ => hanswered) fun _ h => h
    | readline => exact (ends_map _ _ _).mpr (inv.readline (fun _ _ _ _ => trivial) hs)
    | prompt => exact (ends_seqRight _ _ _).mpr (inv.prompted hs)
    | print t =>
      refine (ends_seqRight _ _ _).mpr ((ends_drawAll setup _).imp fun {a} ha => hkeep hs ?_)
      unfold Drew at ha
      rw [ha]
    | _ => exact (ends_seqRight _ _ _).mpr (hkeep hs rfl)
  induction h with
  | created hs => exact hcreated hs
  | requested r _ ih =>
    have hreplied := (hperform ih r).step
    rcases hstep : step setup r _ with ⟨_ | _ | _, s'⟩ <;> rw [hstep] at hreplied <;> exact hreplied
  | expired _ ih => exact Ends.ending ((inv.settle ih).mono (fun _ _ hs => hs.1) fun _ hs => hs)

theorem created_of_toOption {setup : Setup} {size : Size} {clipboard : Text}
    {keys : List (Nat × KeyPress)} (h : (create setup size clipboard keys).toOption = some s) :
    create setup size clipboard keys = .ok s := by
  cases hc : create setup size clipboard keys with
  | ok a =>
    rw [hc] at h
    exact congrArg Except.ok (Option.some.inj h)
  | error e =>
    rw [hc] at h
    cases h

end Promptline.Session
