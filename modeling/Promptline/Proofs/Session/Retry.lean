import Promptline.Proofs.Session.Recall

set_option autoImplicit false

namespace Promptline.Session

open Keys Terminal

variable {setup : Setup} {s q q' : Session}

structure Served (setup : Setup) (s s' : Session) : Prop where
  le : s.calls ≤ s'.calls
  succeed : ∀ k, s.calls ≤ k → k < s'.calls → setup.fails k = false

structure Refused (setup : Setup) (s s' : Session) : Prop where
  lt : s.calls < s'.calls
  fails : setup.fails (s'.calls - 1) = true

theorem Served.refl (setup : Setup) (s : Session) : Served setup s s :=
  ⟨Nat.le_refl _, fun _ hk hlt => absurd hlt (Nat.not_lt.mpr hk)⟩

theorem Served.trans {a b c : Session} (h : Served setup a b) (h' : Served setup b c) :
    Served setup a c := by
  refine ⟨Nat.le_trans h.le h'.le, fun k hk hlt => ?_⟩
  rcases Nat.lt_or_ge k b.calls with hb | hb
  · exact h.succeed k hk hb
  · exact h'.succeed k hb hlt

theorem Served.refused {a b c : Session} (h : Served setup a b) (h' : Refused setup b c) :
    Refused setup a c := ⟨Nat.lt_of_le_of_lt h.le h'.lt, h'.fails⟩

theorem ends_draw_calls (c : Call) :
    Ends (draw setup c) s (fun _ => Served setup s) (Refused setup s) := by
  unfold Ends draw
  cases hfails : setup.fails s.calls with
  | true => exact ⟨Nat.lt_succ_self _, hfails⟩
  | false =>
    refine ⟨Nat.le_succ _, fun k hk hlt => ?_⟩
    have hlast : k = s.calls := Nat.le_antisymm (Nat.le_of_lt_succ hlt) hk
    rw [hlast, hfails]

theorem ends_drawAll_calls (cs : List Call) :
    Ends (drawAll setup cs) s (fun _ => Served setup s) (Refused setup s) := by
  induction cs generalizing s with
  | nil => exact Served.refl setup s
  | cons c cs ih =>
    rw [drawAll, ends_bind]
    refine (ends_draw_calls c).mono (fun _ a ha => ?_) fun _ h => h
    exact ih.mono (fun _ _ hb => ha.trans hb) fun _ hb => ha.refused hb

theorem ends_redraw_calls (jump : Bool) :
    Ends (redraw setup jump) s (fun _ => Served setup s) (Refused setup s) := by
  simp only [redraw, ends_bind, ends_get, ends_modifyEditor]
  refine (ends_drawAll_calls _).mono (fun _ a ha => ?_) fun _ h => ⟨h.lt, h.fails⟩
  have ha : Served setup s a := ⟨ha.le, ha.succeed⟩
  refine (ends_drawAll_calls _).mono (fun _ b hb => ?_) fun b hb => ?_
  · exact ha.trans ⟨hb.le, hb.succeed⟩
  · exact ha.refused ⟨hb.lt, hb.fails⟩

def Editor.submitted (e : Editor) : Editor :=
  { Editor.cleared { e with history := e.history.commit e.buffer.text } with isListening := false }

structure Submitted (s s' : Session) : Prop where
  editor : s'.editor = s.editor.submitted
  subscribers : s'.subscribers = s.subscribers.map (Subscriber.receive (.command s.editor.buffer.text))

/-- `q` is `s` after a submission that failed while it was drawn: the cursor is at the end of the
text, which has been recorded, and nothing else has changed but the rows that a redraw remembers. -/
structure Unsubmitted (s q : Session) : Prop where
  text : q.editor.buffer.text = s.editor.buffer.text
  atEnd : q.editor.buffer.after = []
  editor : q.editor = { s.editor with
    buffer := q.editor.buffer
    history := s.editor.history.commit s.editor.buffer.text
    lastCursorRow := q.editor.lastCursorRow
    lastDisplayRow := q.editor.lastDisplayRow }
  session : q = { s with
    editor := q.editor
    calls := q.calls
    drawn := q.drawn
    now := q.now
    feed := q.feed
    notices := q.notices }

theorem Unsubmitted.drew {a b : Session} (h : Unsubmitted s a) (hd : Drew a b) : Unsubmitted s b := by
  unfold Drew at hd
  rw [hd]
  refine ⟨h.text, h.atEnd, h.editor, ?_⟩
  rw [h.session]

/-- The text is recorded before the first call that can fail. -/
theorem ends_recordSubmission_calls : Ends (recordSubmission setup) s
    (fun _ q => Unsubmitted s q ∧ Served setup s q)
    fun q => Unsubmitted s q ∧ Refused setup s q := by
  let recorded (notices : List Log.Notice) : Session := { s with
    editor := { s.editor with history := s.editor.history.commit s.editor.buffer.text }, notices }
  have hleft {notices : List Log.Notice} {a : Session} (ha : Redrew (recorded notices) a)
      (hplaced : a.editor.buffer = placed setup true (recorded notices)) : Unsubmitted s a := by
    refine ⟨ha.text, ?_, ha.editor, ?_⟩
    · rw [hplaced]
      rfl
    · rw [ha.session]
  have hredraw (notices : List Log.Notice) :=
    ((ends_redraw (s := recorded notices) setup true).and (ends_redraw_placed true)).and
      (ends_redraw_calls true)
  simp only [recordSubmission, ends_bind, ends_get, ends_modifyEditor, ends_note]
  refine (hredraw _).mono (fun _ a ha => ?_) fun a ha => ?_
  · obtain ⟨⟨hredrew, hplaced⟩, hserved⟩ := ha
    have hunsubmitted := hleft hredrew hplaced
    have hserved : Served setup s a := ⟨hserved.le, hserved.succeed⟩
    refine ((ends_drawAll setup _).and (ends_drawAll_calls _)).mono (fun _ b hb => ?_) fun b hb => ?_
    · have hdrawn := hunsubmitted.drew hb.1
      have hall := hserved.trans hb.2
      refine ⟨⟨hdrawn.text, hdrawn.atEnd, hdrawn.editor, ?_⟩, hall.le, hall.succeed⟩
      rw [hdrawn.session]
    · exact ⟨hunsubmitted.drew hb.1, hserved.refused hb.2⟩
  · obtain ⟨⟨hredrew, hplaced⟩, hrefused⟩ := ha
    exact ⟨hleft hredrew hplaced, hrefused.lt, hrefused.fails⟩

/-- A submission succeeds if all its calls do; otherwise one of them makes it fail. -/
theorem ends_submit_calls : Ends (submit setup) s
    (fun e s' => e = .command s.editor.buffer.text ∧ Submitted s s' ∧ Served setup s s')
    fun q => Unsubmitted s q ∧ Refused setup s q := by
  simp only [submit, ends_bind, ends_get]
  refine ends_recordSubmission_calls.mono (fun _ q hq => ?_) fun _ h => h
  obtain ⟨hunsubmitted, hserved⟩ := hq
  simp only [handOver, ends_bind, ends_modifyEditor, ends_publish, ends_pure]
  refine ⟨trivial, ⟨?_, ?_⟩, hserved.le, hserved.succeed⟩
  · rw [hunsubmitted.editor]
    rfl
  · rw [hunsubmitted.session]

inductive PressesEnter (s : Session) : Request → Prop
  | key {p : KeyPress} : Action.ofPress? p = some .enter → PressesEnter s (.key p)
  | readline {delay : Nat} {p : KeyPress} {rest : List (Nat × KeyPress)} :
      s.editor.isClosed = false → s.feed.keys = (delay, p) :: rest →
      Action.ofPress? p = some .enter → PressesEnter s .readline

/-- The sessions to which presses of Enter lead that all fail. -/
inductive Retried (setup : Setup) (s : Session) : Session → Prop
  | first : Retried setup s s
  | again {q q' : Session} {r : Request} {e : Error} : Retried setup s q → PressesEnter q r →
      step setup r q = (.failed e, q') → Retried setup s q'

structure AwaitsEnter (s : Session) : Prop where
  listening : s.editor.isListening = true
  ready : s.editor.readiness = .ready
  presses : s.editor.presses = none

theorem ends_takeKey_of_none (hp : s.editor.presses = none) (delay : Nat)
    (rest : List (Nat × KeyPress)) {Q : Unit → Session → Prop} {E : Session → Prop}
    (h : ∀ now, Q () { s with now, feed := ⟨rest, none⟩ }) :
    Ends (takeKey setup delay rest) s Q E := by
  simp only [takeKey, await, passTime, ends_bind, ends_get, ends_modify]
  rw [hp]
  exact h _

theorem AwaitsEnter.handleKey (h : AwaitsEnter s) {p : KeyPress}
    (hp : Action.ofPress? p = some .enter) : Ends (handleKey setup p) s
      (fun e s' => e = some (.command s.editor.buffer.text) ∧ Submitted s s' ∧ Served setup s s')
      fun q => Unsubmitted s q ∧ Refused setup s q := by
  refine ends_handleKey_of_settled h.listening hp h.presses ⟨by simp, by simp⟩ ?_
  change Ends (enter setup) _ _ _
  rw [enter, ends_bind, ends_get, if_pos h.ready, ends_map]
  refine ends_submit_calls.mono (fun e s' hs => ?_) fun q hq => ?_
  · obtain ⟨rfl, hsubmitted, hserved⟩ := hs
    exact ⟨rfl, ⟨hsubmitted.editor, hsubmitted.subscribers⟩, hserved.le, hserved.succeed⟩
  · obtain ⟨hunsubmitted, hrefused⟩ := hq
    refine ⟨⟨hunsubmitted.text, hunsubmitted.atEnd, hunsubmitted.editor, ?_⟩, hrefused.lt,
      hrefused.fails⟩
    rw [hunsubmitted.session]

/-- What a press of Enter does. -/
theorem AwaitsEnter.perform (h : AwaitsEnter s) (setup : Setup) {r : Request}
    (hr : PressesEnter s r) :
    Ends (perform setup r) s
      (fun e s' => e = some (.command s.editor.buffer.text) ∧ Submitted s s' ∧ Served setup s s')
      fun q => Unsubmitted s q ∧ Refused setup s q := by
  cases hr with
  | key hp => exact h.handleKey hp
  | @readline delay p rest hopen hkeys hp =>
    have htaken (now : Nat) : AwaitsEnter { s with now, feed := ⟨rest, none⟩ } :=
      ⟨h.listening, h.ready, h.presses⟩
    change Ends (some <$> readline setup) s _ _
    rw [ends_map, readline, ends_bind, ends_get, hopen, if_neg Bool.false_ne_true, hkeys, readKeys,
      ends_bind]
    refine ends_takeKey_of_none h.presses delay rest fun now => ?_
    rw [ends_bind]
    refine ((htaken now).handleKey hp).mono (fun e s' hs => ?_) fun q hq => ?_
    · obtain ⟨rfl, hsubmitted, hserved⟩ := hs
      exact ⟨rfl, ⟨hsubmitted.editor, hsubmitted.subscribers⟩, hserved.le, hserved.succeed⟩
    · obtain ⟨hunsubmitted, hrefused⟩ := hq
      refine ⟨⟨hunsubmitted.text, hunsubmitted.atEnd, hunsubmitted.editor, ?_⟩, hrefused.lt,
        hrefused.fails⟩
      rw [hunsubmitted.session]

/-- The text can be recorded twice with the effect of once. -/
def Rerecords (s : Session) : Prop :=
  let recorded := s.editor.history.commit s.editor.buffer.text
  recorded.commit s.editor.buffer.text = recorded

structure Recorded (setup : Setup) (s : Session) : Prop where
  records : ∃ ts, History.Records setup.config.historyCap ts s.editor.history
  armed : s.editor.presses ≠ none → s.editor.isListening = true

theorem Recorded.rerecords (h : Recorded setup s) : Rerecords s := by
  obtain ⟨ts, hrecords⟩ := h.records
  exact hrecords.commit_commit _

theorem Recorded.keep {s' : Session} (h : Recorded setup s)
    (hhistory : s'.editor.history = s.editor.history)
    (harmed : s'.editor.presses ≠ none → s'.editor.isListening = true) : Recorded setup s' := by
  refine ⟨?_, harmed⟩
  rw [hhistory]
  exact h.records

theorem Recorded.redrew {s' : Session} (h : Recorded setup s) (hr : Redrew s s') :
    Recorded setup s' := by
  refine h.keep hr.history ?_
  rw [hr.presses, hr.isListening]
  exact h.armed

theorem Recorded.sync (h : Recorded setup s) (t : Text) :
    Recorded setup { s with editor := { s.editor with history := s.editor.history.sync t } } := by
  obtain ⟨ts, hrecords⟩ := h.records
  exact ⟨⟨ts, hrecords.sync t⟩, h.armed⟩

theorem Recorded.submit (h : Recorded setup s) (hp : s.editor.presses = none) :
    Ends (submit setup) s (fun _ => Recorded setup) (Recorded setup) := by
  obtain ⟨ts, hrecords⟩ := h.records
  have hrecorded {s' : Session}
      (hhistory : s'.editor.history = s.editor.history.commit s.editor.buffer.text)
      (hpresses : s'.editor.presses = none) : Recorded setup s' := by
    refine ⟨⟨ts ++ [s.editor.buffer.text], ?_⟩, fun harmed => absurd hpresses harmed⟩
    rw [hhistory, hrecords.commit_eq]
    exact History.records_ofSubmissions _ _
  refine ends_submit_calls.mono (fun e s' hs => ?_) fun q hq => ?_
  · exact hrecorded (by rw [hs.2.1.editor]; rfl) (by rw [hs.2.1.editor]; exact hp)
  · exact hrecorded (by rw [hq.1.editor]) (by rw [hq.1.editor]; exact hp)

theorem recorded_invariant (setup : Setup) :
    Invariant setup (fun _ => True) (Recorded setup) fun _ => Recorded setup where
  lineFeed := trivial
  pasted _ := trivial
  armed h := h.armed
  noted _ h := h.keep rfl h.armed
  passed _ _ h := h.keep rfl h.armed
  pressed _ h hl := h.keep rfl fun _ => hl
  copied h _ := h.keep rfl h.armed
  synced h _ := h.sync _
  redrawn {s b} jump h _ _ := by
    have hplaced : Recorded setup (s.withBuffer b) := h.keep rfl h.armed
    exact (ends_redraw setup jump).imp hplaced.redrew
  edited {s b} h _ _ := by
    have hfollowed : Recorded setup (s.withBuffer b).followed := (h.sync b.text).keep rfl h.armed
    exact (ends_afterTextChange setup).imp hfollowed.redrew
  browsed {s slot} h _ hslot := by
    have hentries : slot.entries = s.editor.history.entries ∧ slot.cap = s.editor.history.cap :=
      hslot.elim History.prev?_entries History.next?_entries
    obtain ⟨ts, hrecords⟩ := h.records
    have hbrowsed : Recorded setup (s.browsed slot) := ⟨⟨ts, hrecords.of_entries hentries⟩, h.armed⟩
    exact (ends_redraw setup true).imp hbrowsed.redrew
  cleared h _ := (ends_clearScreen setup).imp h.redrew
  submitted h _ hp _ := h.submit hp
  prompted {s} h := by
    have hcleared : Recorded setup s.atPrompt := h.keep rfl h.armed
    refine (ends_showPrompt_redrew setup true).mono (fun _ s' hs => ?_) fun _ => hcleared.redrew
    obtain ⟨a, ha, rfl⟩ := hs
    exact (hcleared.redrew ha).keep rfl fun _ => rfl
  closed {s} h := by
    simp only [close, ends_bind, ends_get, ends_modifyEditor, ends_note, ends_publish, ends_pure]
    exact h.keep rfl h.armed

theorem recorded_of_create {size : Size} {clipboard : Text} {keys : List (Nat × KeyPress)}
    (h : create setup size clipboard keys = .ok s) : Recorded setup s := by
  refine Ends.created (E := fun _ => True) ?_ h
  refine (ends_showPrompt_redrew setup false).mono (fun _ s' hs => ?_) fun _ _ => trivial
  obtain ⟨a, ha, rfl⟩ := hs
  refine ⟨⟨[], ?_⟩, fun _ => rfl⟩
  change History.Records _ _ a.editor.history
  rw [ha.history]
  exact History.records_new _

theorem Reachable.recorded (h : Reachable setup s) : Recorded setup s :=
  h.of_invariant (recorded_invariant setup)
    (fun ha he => ha.keep (by rw [he]) (by rw [he]; exact ha.armed)) recorded_of_create

/-- The session is as before any press of Enter, or as after one that failed. -/
def Waits (s q : Session) : Prop := q = s ∨ Unsubmitted s q

theorem Unsubmitted.trans {a b c : Session} (h : Unsubmitted a b) (h' : Unsubmitted b c)
    (hr : Rerecords a) : Unsubmitted a c := by
  refine ⟨h'.text.trans h.text, h'.atEnd, ?_, ?_⟩
  · rw [h'.editor, h.text, h.editor]
    unfold Rerecords at hr
    rw [hr]
  · rw [h'.session, h.session]

theorem Waits.unsubmitted {a b c : Session} (h : Waits a b) (h' : Unsubmitted b c)
    (hr : Rerecords a) : Unsubmitted a c := by
  rcases h with rfl | h
  · exact h'
  · exact h.trans h' hr

theorem Waits.submitted (h : Waits s q) (hr : Rerecords s) : q.editor.submitted = s.editor.submitted := by
  rcases h with rfl | h
  · rfl
  · have hcommitted : q.editor.history.commit q.editor.buffer.text =
        s.editor.history.commit s.editor.buffer.text := by
      rw [h.text, h.editor]
      exact hr
    rw [Editor.submitted, hcommitted, h.editor]
    rfl

theorem Waits.text (h : Waits s q) : q.editor.buffer.text = s.editor.buffer.text := by
  rcases h with rfl | h
  · rfl
  · exact h.text

theorem Waits.subscribers (h : Waits s q) : q.subscribers = s.subscribers := by
  rcases h with rfl | h
  · rfl
  · rw [h.session]

theorem Waits.awaitsEnter (h : Waits s q) (hs : AwaitsEnter s) : AwaitsEnter q := by
  rcases h with rfl | h
  · exact hs
  · refine ⟨?_, ?_, ?_⟩
    · rw [h.editor]
      exact hs.listening
    · rw [h.editor]
      exact hs.ready
    · rw [h.editor]
      exact hs.presses

theorem Retried.waits (h : Retried setup s q) (hs : AwaitsEnter s) (hr : Rerecords s) :
    Waits s q := by
  induction h with
  | first => exact Or.inl rfl
  | @again q q' r e _ henter hstep ih =>
    have hreplied := ((ih.awaitsEnter hs).perform setup henter).step
    rw [hstep] at hreplied
    exact Or.inr (ih.unsubmitted hreplied.1 hr)

/-- However many presses of Enter have failed, they have published nothing and changed nothing but
the place of the cursor, the rows that a redraw remembers and the history, which holds the text. One
more press fails in the same way if one of its calls fails. Otherwise it publishes the text once and
leaves the editor as the first press would have, had no call failed. -/
theorem submission_retried (h : Reachable setup s) (hs : AwaitsEnter s) (hq : Retried setup s q)
    {r : Request} (hr : PressesEnter q r) :
    (q = s ∨ Unsubmitted s q) ∧ ∀ reply q', step setup r q = (reply, q') →
      ((∃ k, q.calls ≤ k ∧ k < q'.calls ∧ setup.fails k = true) →
        (∃ e, reply = .failed e) ∧ Unsubmitted s q') ∧
      ((∀ k, q.calls ≤ k → k < q'.calls → setup.fails k = false) →
        reply = .event (.command s.editor.buffer.text) ∧
        q'.subscribers = s.subscribers.map (Subscriber.receive (.command s.editor.buffer.text)) ∧
        ∀ first, PressesEnter s first → ∃ s',
          step setup.reliable first s = (.event (.command s.editor.buffer.text), s') ∧
          q'.editor = s'.editor) := by
  have hrerecords := h.recorded.rerecords
  have hwaits := hq.waits hs hrerecords
  refine ⟨hwaits, fun reply q' hstep => ?_⟩
  have hreplied := ((hwaits.awaitsEnter hs).perform setup hr).step
  rw [hstep] at hreplied
  cases reply with
  | done => cases hreplied.1
  | event e =>
    obtain ⟨he, hsubmitted, hserved⟩ := hreplied
    refine ⟨fun hfails => ?_, fun _ => ⟨?_, ?_, fun first hfirst => ?_⟩⟩
    · obtain ⟨k, hk, hlt, hfails⟩ := hfails
      exact absurd (hfails.symm.trans (hserved.succeed k hk hlt)) (by simp)
    · rw [Option.some.inj he, hwaits.text]
    · rw [hsubmitted.subscribers, hwaits.subscribers, hwaits.text]
    · have hreliable : Ends (perform setup.reliable first) s
          (fun e s' => e = some (.command s.editor.buffer.text) ∧ Submitted s s') fun _ => False :=
        (hs.perform setup.reliable hfirst).mono (fun _ _ hs' => ⟨hs'.1, hs'.2.1⟩)
          fun _ hfailed => absurd hfailed.2.fails Bool.false_ne_true
      obtain ⟨_, s', hstepped, rfl, hsubmitted'⟩ := hreliable.replied
      refine ⟨s', hstepped, ?_⟩
      rw [hsubmitted.editor, hsubmitted'.editor, hwaits.submitted hrerecords]
  | failed e =>
    obtain ⟨hunsubmitted, hrefused⟩ := hreplied
    refine ⟨fun _ => ⟨⟨e, rfl⟩, hwaits.unsubmitted hunsubmitted hrerecords⟩, fun hserved => ?_⟩
    have hlt := hrefused.lt
    have hsucceeds := hserved (q'.calls - 1) (by omega) (by omega)
    exact absurd (hrefused.fails.symm.trans hsucceeds) (by simp)

/-- The first press of Enter fails before anything is drawn, the second one at the line feed behind the
text, and the third one publishes it. -/
theorem third_press_submits : ∃ s q q', Reachable (Setup.failing [10, 16]) s ∧ AwaitsEnter s ∧
    Retried (Setup.failing [10, 16]) s q ∧
    step (Setup.failing [10, 16]) (.key (.ofName .enter)) q = (.event (.command "a".toList), q') ∧
    Unsubmitted s q ∧
    ∃ s', step Setup.plain (.key (.ofName .enter)) s = (.event (.command "a".toList), s') ∧
      q'.editor = s'.editor := by
  let setup := Setup.failing [10, 16]
  let enter : Request := .key (.ofName .enter)
  have hrun : (create setup .standard [] []).toOption.any (fun created =>
      let s := (step setup (.key (.ofChar 'a')) created).2
      let q := (step setup enter s).2
      let q' := (step setup enter q).2
      let last := (step setup enter q').2
      s.editor.isListening && s.editor.readiness == .ready && s.editor.presses == none &&
        s.editor.buffer.text == "a".toList && (step setup enter s).1 == .failed (.sink 10) &&
        (step setup enter q).1 == .failed (.sink 16) && [s.calls, q'.calls, last.calls] == [10, 17, 24]) = true := by
    decide +kernel
  obtain ⟨created, hcreated, hfacts⟩ := (Option.any_eq_true _ _).mp hrun
  have hreach := (Reachable.created (created_of_toOption hcreated)).requested (.key (.ofChar 'a'))
  generalize (step setup (.key (.ofChar 'a')) created).2 = s at hfacts hreach
  simp only [Bool.and_eq_true, beq_iff_eq, List.cons.injEq, and_true] at hfacts
  obtain ⟨⟨⟨⟨⟨⟨hlistening, hready⟩, hpresses⟩, htext⟩, hfirst⟩, hsecond⟩, hstart, hcalls, hlast⟩ :=
    hfacts
  have hawaits : AwaitsEnter s := ⟨hlistening, hready, hpresses⟩
  have henter (q : Session) : PressesEnter q enter := .key rfl
  have hretried := (Retried.first.again (henter _) (Prod.ext hfirst rfl)).again (henter _)
    (Prod.ext hsecond rfl)
  obtain ⟨hwaits, hnext⟩ := submission_retried hreach hawaits hretried (henter _)
  have hquiet : ∀ k, 17 ≤ k → k < 24 → setup.fails k = false := by decide
  rw [← hcalls, ← hlast] at hquiet
  obtain ⟨hreply, -, hsame⟩ := (hnext _ _ rfl).2 hquiet
  rw [htext] at hreply hsame
  have hunsubmitted := hwaits.resolve_left fun hq => absurd (hstart.symm.trans
    ((congrArg Session.calls hq).symm.trans hcalls)) (by decide)
  exact ⟨s, _, _, hreach, hawaits, hretried, Prod.ext hreply rfl, hunsubmitted, hsame _ (henter s)⟩

end Promptline.Session
