import Promptline.Session.Run

/-!
How an operation of a session ends. `Ends m s Q E` says that `m` started in `s` either succeeds, with
a result and a session of which `Q` holds, or fails in a session of which `E` holds. The rules below
take a compound operation apart; a redraw is described once by what it leaves alone.
-/

set_option autoImplicit false

namespace Promptline.Session

open Keys Terminal

variable {α β : Type} {s : Session} {E : Session → Prop}

def Ends (m : Act α) (s : Session) (Q : α → Session → Prop) (E : Session → Prop) : Prop :=
  match m s with
  | .ok a s' => Q a s'
  | .error _ s' => E s'

def ending (m : Act α) (s : Session) : Session :=
  match m s with
  | .ok _ s' => s'
  | .error _ s' => s'

def failure? (m : Act α) (s : Session) : Option Error :=
  match m s with
  | .ok _ _ => none
  | .error e _ => some e

theorem Ends.mono {m : Act α} {Q Q' : α → Session → Prop} {E' : Session → Prop}
    (h : Ends m s Q E) (hQ : ∀ a s', Q a s' → Q' a s') (hE : ∀ s', E s' → E' s') :
    Ends m s Q' E' := by
  unfold Ends at h ⊢
  split <;> simp_all

theorem Ends.imp {m : Act α} {P P' : Session → Prop} (h : Ends m s (fun _ => P) P)
    (hP : ∀ {s'}, P s' → P' s') : Ends m s (fun _ => P') P' :=
  h.mono (fun _ _ => hP) fun _ => hP

theorem Ends.and {m : Act α} {Q Q' : α → Session → Prop} {E' : Session → Prop}
    (h : Ends m s Q E) (h' : Ends m s Q' E') :
    Ends m s (fun a s' => Q a s' ∧ Q' a s') fun s' => E s' ∧ E' s' := by
  unfold Ends at h h' ⊢
  split <;> simp_all

theorem Ends.of_ok {m : Act α} {Q : α → Session → Prop} {a : α} {s' : Session}
    (h : Ends m s Q E) (hm : m s = .ok a s') : Q a s' := by
  simpa [Ends, hm] using h

theorem ends_of_ok {m : Act α} {Q : α → Session → Prop} {a : α} {t : Session}
    (hm : m s = .ok a t) (h : Q a t) : Ends m s Q E := by
  unfold Ends
  rwa [hm]

theorem Ends.exists_ok {m : Act α} {Q : α → Session → Prop} (h : Ends m s Q fun _ => False) :
    ∃ a s', m s = .ok a s' ∧ Q a s' := by
  unfold Ends at h
  split at h
  · exact ⟨_, _, ‹_›, h⟩
  · exact h.elim

theorem Ends.ending {m : Act α} {P : Session → Prop} (h : Ends m s (fun _ => P) P) :
    P (ending m s) := by
  unfold Ends at h
  unfold Session.ending
  split <;> simp_all

def Reply.event? : Reply → Option Event
  | .event e => some e
  | _ => none

def Reply.ofEvent? : Option Event → Reply
  | none => .done
  | some e => .event e

/-- What an outcome says of a reply and the session after it. -/
def Replied (Q : Option Event → Session → Prop) (E : Session → Prop) : Reply × Session → Prop
  | (.done, s) => Q none s
  | (.event e, s) => Q (some e) s
  | (.failed _, s) => E s

theorem Ends.step {setup : Setup} {r : Request} {Q : Option Event → Session → Prop}
    (h : Ends (perform setup r) s Q E) : Replied Q E (step setup r s) := by
  unfold Ends at h
  unfold Session.step
  split <;> simp_all [Replied]

theorem step_of_ok {setup : Setup} {r : Request} {e : Option Event} {s' : Session}
    (h : perform setup r s = .ok e s') : Session.step setup r s = (Reply.ofEvent? e, s') := by
  unfold Session.step
  rw [h]
  cases e <;> rfl

theorem perform_of_done {setup : Setup} {r : Request} (h : (Session.step setup r s).1 = .done) :
    perform setup r s = .ok none (Session.step setup r s).2 := by
  unfold Session.step at h ⊢
  split <;> simp_all

theorem Ends.replied {setup : Setup} {r : Request} {Q : Option Event → Session → Prop}
    (h : Ends (perform setup r) s Q fun _ => False) :
    ∃ e s', Session.step setup r s = (Reply.ofEvent? e, s') ∧ Q e s' := by
  obtain ⟨e, s', hr, he⟩ := h.exists_ok
  exact ⟨e, s', step_of_ok hr, he⟩

theorem Ends.created {setup : Setup} {size : Size} {clipboard : Text}
    {keys : List (Nat × KeyPress)} {P : Session → Prop}
    (h : Ends (showPrompt setup false) (initial setup size clipboard keys) (fun _ => P) E)
    (hs : create setup size clipboard keys = .ok s) : P s := by
  unfold create at hs
  split at hs
  · rename_i hok
    cases hs
    exact h.of_ok hok
  · cases hs

theorem ends_ok (m : Act α) (s : Session) :
    Ends m s (fun a s' => m s = .ok a s') fun _ => True := by
  unfold Ends
  cases m s <;> trivial

@[simp] theorem ends_pure (a : α) (Q : α → Session → Prop) :
    Ends (pure a) s Q E ↔ Q a s := Iff.rfl

@[simp] theorem ends_bind (m : Act α) (f : α → Act β) (Q : β → Session → Prop) :
    Ends (m >>= f) s Q E ↔ Ends m s (fun a s' => Ends (f a) s' Q E) E := by
  simp only [Ends, bind, EStateM.bind]
  cases m s <;> rfl

@[simp] theorem ends_seqRight (m : Act α) (m' : Act β) (Q : β → Session → Prop) :
    Ends (m *> m') s Q E ↔ Ends m s (fun _ s' => Ends m' s' Q E) E := by
  simp only [Ends, SeqRight.seqRight, EStateM.seqRight]
  cases m s <;> rfl

@[simp] theorem ends_map (f : α → β) (m : Act α) (Q : β → Session → Prop) :
    Ends (f <$> m) s Q E ↔ Ends m s (fun a s' => Q (f a) s') E := by
  simp only [Ends, Functor.map, EStateM.map]
  cases m s <;> rfl

@[simp] theorem ends_get (Q : Session → Session → Prop) :
    Ends (get : Act Session) s Q E ↔ Q s s := Iff.rfl

@[simp] theorem ends_modify (f : Session → Session) (Q : Unit → Session → Prop) :
    Ends (modify f : Act Unit) s Q E ↔ Q () (f s) := Iff.rfl

@[simp] theorem ends_modifyEditor (f : Editor → Editor) (Q : Unit → Session → Prop) :
    Ends (modifyEditor f) s Q E ↔ Q () { s with editor := f s.editor } := Iff.rfl

@[simp] theorem ends_note (n : Log.Notice) (Q : Unit → Session → Prop) :
    Ends (note n) s Q E ↔ Q () { s with notices := s.notices ++ [n] } := Iff.rfl

@[simp] theorem ends_publish (e : Event) (Q : Unit → Session → Prop) :
    Ends (publish e) s Q E ↔
      Q () { s with subscribers := s.subscribers.map (Subscriber.receive e) } := Iff.rfl

theorem get_bind (f : Session → Act α) (s : Session) : (get >>= f) s = f s s := rfl

theorem settle_none (setup : Setup) (hp : s.editor.presses = none) : settle setup s = .ok () s := by
  rw [settle, get_bind, hp]
  rfl

/-- A key that can be pressed twice is only noted at first. All other actions are run when what was
pending has been settled. -/
theorem ends_applyAction_of_settled {setup : Setup} {action : Action}
    {Q : Option Event → Session → Prop}
    (hpressed : ∀ key, Ends (pressTwiceKey setup key) s (fun _ => Q none) E)
    (hsettled : Ends (settle setup) s (fun _ q => Ends (runAction setup action) q Q E) E) :
    Ends (applyAction setup action) s Q E := by
  have hrun : Ends (settle setup >>= fun _ => runAction setup action) s Q E :=
    (ends_bind _ _ _).mpr hsettled
  cases action with
  | tab => exact (ends_seqRight _ _ _).mpr (hpressed .tab)
  | copy => exact (ends_seqRight _ _ _).mpr (hpressed .copy)
  | _ => exact hrun

theorem handleKey_of_action {setup : Setup} {p : KeyPress} {action : Action}
    (hl : s.editor.isListening = true) (ha : Action.ofPress? p = some action) :
    handleKey setup p s =
      applyAction setup action { s with notices := s.notices ++ [.keyPress action] } := by
  rw [handleKey, get_bind, if_pos hl, ha]
  rfl

theorem handleKey_of_none {setup : Setup} {p : KeyPress} (ha : Action.ofPress? p = none) :
    handleKey setup p s = .ok none s := by
  rw [handleKey, get_bind, ha]
  split <;> rfl

/-- No line is read after the end. -/
theorem step_readline_closed {setup : Setup} (hc : s.editor.isClosed = true) :
    step setup .readline s = (.failed .closed, s) := by
  have hfails : perform setup .readline s = .error .closed s := by
    change (some <$> readline setup) s = _
    simp only [Functor.map, EStateM.map, readline, get_bind, if_pos hc]
    rfl
  rw [step, hfails]

/-- A key for an action is pressed, with none pending. -/
theorem ends_handleKey_of_settled {setup : Setup} {p : KeyPress} {action : Action}
    {Q : Option Event → Session → Prop} (hl : s.editor.isListening = true)
    (ha : Action.ofPress? p = some action) (hnone : s.editor.presses = none)
    (htwice : action ≠ .tab ∧ action ≠ .copy)
    (h : Ends (runAction setup action) { s with notices := s.notices ++ [.keyPress action] } Q E) :
    Ends (handleKey setup p) s Q E := by
  have hsettled : Ends (settle setup >>= fun _ => runAction setup action)
      { s with notices := s.notices ++ [.keyPress action] } Q E := by
    rw [ends_bind, settle, ends_bind, ends_get]
    simp only [hnone]
    exact h
  rw [handleKey, ends_bind, ends_get, if_pos hl, ha, ends_bind, ends_note]
  cases action with
  | tab => exact absurd rfl htwice.1
  | copy => exact absurd rfl htwice.2
  | _ => exact hsettled

def Drew (s s' : Session) : Prop := s' = { s with calls := s'.calls, drawn := s'.drawn }

theorem Drew.refl (s : Session) : Drew s s := rfl

theorem Drew.trans {a b c : Session} (h : Drew a b) (h' : Drew b c) : Drew a c := by
  unfold Drew at h h' ⊢
  rw [h', h]

theorem ends_draw (setup : Setup) (c : Call) :
    Ends (draw setup c) s (fun _ => Drew s) (Drew s) := by
  unfold Ends draw
  cases setup.fails s.calls <;> exact rfl

theorem ends_drawAll (setup : Setup) (cs : List Call) :
    Ends (drawAll setup cs) s (fun _ => Drew s) (Drew s) := by
  induction cs generalizing s with
  | nil => exact Drew.refl s
  | cons c cs ih =>
    rw [drawAll, ends_bind]
    refine (ends_draw setup c).mono ?_ fun _ h => h
    intro _ s' h
    exact ih.mono (fun _ _ h' => h.trans h') fun _ h' => h.trans h'

/-- What a redraw keeps: everything but the place of the cursor, the rows it remembers and what has
been drawn. -/
structure Redrew (s s' : Session) : Prop where
  text : s'.editor.buffer.text = s.editor.buffer.text
  editor : s'.editor = { s.editor with
    buffer := s'.editor.buffer
    lastCursorRow := s'.editor.lastCursorRow
    lastDisplayRow := s'.editor.lastDisplayRow }
  session : s' = { s with editor := s'.editor, calls := s'.calls, drawn := s'.drawn }

namespace Redrew

variable {s' : Session}

theorem frames (h : Redrew s s') : s'.editor.frames = s.editor.frames := by
  rw [h.editor]

theorem readiness (h : Redrew s s') : s'.editor.readiness = s.editor.readiness := by
  rw [h.editor]

theorem history (h : Redrew s s') : s'.editor.history = s.editor.history := by
  rw [h.editor]

theorem presses (h : Redrew s s') : s'.editor.presses = s.editor.presses := by
  rw [h.editor]

theorem isListening (h : Redrew s s') : s'.editor.isListening = s.editor.isListening := by
  rw [h.editor]

theorem isClosed (h : Redrew s s') : s'.editor.isClosed = s.editor.isClosed := by
  rw [h.editor]

theorem size (h : Redrew s s') : s'.size = s.size := by
  rw [h.session]

theorem clipboard (h : Redrew s s') : s'.clipboard = s.clipboard := by
  rw [h.session]

theorem subscribers (h : Redrew s s') : s'.subscribers = s.subscribers := by
  rw [h.session]

end Redrew

theorem redrew_with {b : Buffer} (h : b.text = s.editor.buffer.text) (cursorRow displayRow : Nat) :
    Redrew s { s with editor := { s.editor with
      buffer := b, lastCursorRow := cursorRow, lastDisplayRow := displayRow } } :=
  ⟨h, rfl, rfl⟩

theorem Drew.redrew {s s' : Session} (h : Drew s s') : Redrew s s' := by
  unfold Drew at h
  rw [h]
  exact ⟨rfl, rfl, rfl⟩

theorem Redrew.trans {a b c : Session} (h : Redrew a b) (h' : Redrew b c) : Redrew a c := by
  refine ⟨h'.text.trans h.text, ?_, ?_⟩
  · rw [h'.editor, h.editor]
  · rw [h'.session, h.session]

theorem ends_redraw (setup : Setup) (jump : Bool) :
    Ends (redraw setup jump) s (fun _ => Redrew s) (Redrew s) := by
  have hplaced : ((if jump then s.editor.buffer.moveToEnd else s.editor.buffer).updateScreenRow
      (s.context setup)).text = s.editor.buffer.text := by
    split
    · exact Buffer.moveToEnd_text _
    · rfl
  simp only [redraw, ends_bind, ends_get, ends_modifyEditor]
  refine (ends_drawAll setup _).mono ?_ ?_
  · intro _ a ha
    have hreturned := (redrew_with hplaced _ _).trans ha.redrew
    have hmoved (row : Nat) :=
      hreturned.trans (redrew_with rfl row a.editor.lastDisplayRow)
    exact (ends_drawAll setup _).mono (fun _ _ h => (hmoved _).trans h.redrew)
      fun _ h => (hmoved _).trans h.redrew
  · intro a ha
    exact (redrew_with hplaced _ _).trans ha.redrew

end Promptline.Session
