import Promptline.Proofs.Session.Retry

set_option autoImplicit false

namespace Promptline.Session

open Keys

variable {setup : Setup} {s s' q : Session}

structure Editor.Idle (e : Editor) : Prop where
  text : e.buffer.text = []
  frames : e.frames = []
  readiness : e.readiness = .ready
  index : e.history.index = 0
  watermark : e.history.watermark = 0
  reverted : ∀ entry ∈ e.history.entries, entry.current = entry.committed
  presses : e.presses = none

theorem Editor.Idle.keep {e e' : Editor} (h : e.Idle) (ht : e'.buffer.text = e.buffer.text)
    (hf : e'.frames = e.frames) (hr : e'.readiness = e.readiness) (hh : e'.history = e.history)
    (hp : e'.presses = e.presses) : e'.Idle where
  text := ht.trans h.text
  frames := hf.trans h.frames
  readiness := hr.trans h.readiness
  index := by rw [hh]; exact h.index
  watermark := by rw [hh]; exact h.watermark
  reverted := by rw [hh]; exact h.reverted
  presses := hp.trans h.presses

theorem Editor.Idle.redrew (h : s.editor.Idle) (hr : Redrew s s') : s'.editor.Idle :=
  h.keep hr.text hr.frames hr.readiness hr.history hr.presses

theorem commit_reverts (h : History) (t : Text) {entry : History.Entry}
    (he : entry ∈ (h.commit t).entries) : entry.current = entry.committed := by
  have hreverted {entry : History.Entry} (he : entry ∈ h.entries.map History.Entry.reverted) :
      entry.current = entry.committed := by
    obtain ⟨old, -, rfl⟩ := List.mem_map.mp he
    rfl
  have hgrown {entry : History.Entry} (he : entry ∈ History.Entry.blank ::
      History.Entry.ofSubmission t :: (h.entries.map History.Entry.reverted).tail) :
      entry.current = entry.committed := by
    rcases List.mem_cons.mp he with rfl | he
    · rfl
    · rcases List.mem_cons.mp he with rfl | he
      · rfl
      · exact hreverted (List.mem_of_mem_tail he)
  simp only [History.commit] at he
  split at he
  · split at he
    · exact hgrown he
    · exact hgrown (List.mem_of_mem_take he)
  · exact hreverted he

theorem Editor.submitted_idle {e : Editor} (hp : e.presses = none) : e.submitted.Idle where
  text := rfl
  frames := rfl
  readiness := rfl
  index := rfl
  watermark := rfl
  reverted _ he := commit_reverts _ _ he
  presses := hp

structure Quiescent (s : Session) : Prop where
  armed : s.editor.presses ≠ none → s.editor.isListening = true
  idle : s.editor.isListening = false → s.editor.Idle

theorem quiescent_of_listening (hl : s.editor.isListening = true) : Quiescent s :=
  ⟨fun _ => hl, fun hnot => absurd (hl.symm.trans hnot) (by simp)⟩

theorem Redrew.quiescent (hr : Redrew s s') (hl : s.editor.isListening = true) : Quiescent s' :=
  quiescent_of_listening (hr.isListening.trans hl)

theorem Quiescent.prompted (h : Quiescent s) :
    Ends (showPrompt setup true) s (fun _ => Quiescent) Quiescent := by
  refine (ends_showPrompt_redrew setup true).mono (fun _ s' hs => ?_) fun a ha => ?_
  · obtain ⟨a, -, rfl⟩ := hs
    exact quiescent_of_listening rfl
  · cases hl : s.editor.isListening with
    | true => exact ha.quiescent hl
    | false =>
      -- The text is cleared before the drawing fails, but there was none.
      have hidle : s.atPrompt.editor.Idle :=
        (h.idle hl).keep (h.idle hl).text.symm (h.idle hl).frames.symm
          (h.idle hl).readiness.symm rfl rfl
      have hkept := hidle.redrew ha
      exact ⟨fun harmed => absurd hkept.presses harmed, fun _ => hkept⟩

theorem quiescent_submit (hl : s.editor.isListening = true) (hp : s.editor.presses = none) :
    Ends (submit setup) s (fun _ => Quiescent) Quiescent := by
  refine ends_submit_calls.mono (fun e s' hs => ?_) fun q hq => ?_
  · obtain ⟨-, hsubmitted, -⟩ := hs
    have hidle : s'.editor.Idle := by
      rw [hsubmitted.editor]
      exact Editor.submitted_idle hp
    exact ⟨fun harmed => absurd hidle.presses harmed, fun _ => hidle⟩
  · refine quiescent_of_listening ?_
    rw [hq.1.editor]
    exact hl

theorem quiescent_invariant (setup : Setup) :
    Invariant setup (fun _ => True) Quiescent fun _ => Quiescent where
  lineFeed := trivial
  pasted _ := trivial
  armed h := h.armed
  noted _ h := ⟨h.armed, h.idle⟩
  passed _ _ h := ⟨h.armed, h.idle⟩
  pressed _ _ hl := quiescent_of_listening hl
  copied h _ := ⟨h.armed, h.idle⟩
  synced _ hl := quiescent_of_listening hl
  redrawn jump _ hl _ := (ends_redraw setup jump).imp fun hr => hr.quiescent hl
  edited _ hl _ := (ends_afterTextChange setup).imp fun hr => hr.quiescent hl
  browsed _ hl _ := (ends_redraw setup true).imp fun hr => hr.quiescent hl
  cleared _ hl := (ends_clearScreen setup).imp fun hr => hr.quiescent hl
  submitted _ hl hp _ := quiescent_submit hl hp
  prompted h := h.prompted
  closed {s} h := by
    simp only [close, ends_bind, ends_get, ends_modifyEditor, ends_note, ends_publish, ends_pure]
    exact ⟨h.armed, fun hl => (h.idle hl).keep rfl rfl rfl rfl rfl⟩

theorem Reachable.quiescent (h : Reachable setup s) : Quiescent s := by
  refine h.of_invariant (quiescent_invariant setup) (fun ha he => ?_) fun hs => ?_
  · refine ⟨?_, ?_⟩
    · rw [he]
      exact ha.armed
    · rw [he]
      exact ha.idle
  · refine Ends.created (E := fun _ => True) ?_ hs
    refine (ends_showPrompt_redrew setup false).mono (fun _ s' hs => ?_) fun _ _ => trivial
    obtain ⟨a, -, rfl⟩ := hs
    exact quiescent_of_listening rfl

/-- A session that drops all keys and has none pending. -/
structure Awaiting (s : Session) : Prop where
  listening : s.editor.isListening = false
  presses : s.editor.presses = none

theorem Quiescent.awaiting (h : Quiescent s) (hl : s.editor.isListening = false) : Awaiting s :=
  ⟨hl, (h.idle hl).presses⟩

/-- `s'` is `s` after some time, with keys taken from those to come. -/
def Passed (s s' : Session) : Prop := s' = { s with now := s'.now, feed := s'.feed }

def Exhausted (s s' : Session) : Prop :=
  s'.feed.keys = [] ∧ s' = { s with
    editor := { s.editor with isClosed := true }
    subscribers := s.subscribers.map (Subscriber.receive .close)
    notices := s.notices ++ [.closed s.editor.promptNumber]
    now := s'.now
    feed := s'.feed }

theorem Passed.awaiting (h : Passed s s') (ha : Awaiting s) : Awaiting s' := by
  unfold Passed at h
  rw [h]
  exact ⟨ha.listening, ha.presses⟩

theorem Exhausted.awaiting (h : Exhausted s s') (ha : Awaiting s) : Awaiting s' := by
  rw [h.2]
  exact ⟨ha.listening, ha.presses⟩

theorem Passed.trans {a b c : Session} (h : Passed a b) (h' : Passed b c) : Passed a c := by
  unfold Passed at h h' ⊢
  rw [h', h]

theorem Passed.exhausted {a b c : Session} (h : Passed a b) (h' : Exhausted b c) :
    Exhausted a c := by
  refine ⟨h'.1, ?_⟩
  have hlast := h'.2
  unfold Passed at h
  rw [h] at hlast
  exact hlast

theorem Awaiting.handleKey (h : Awaiting s) (setup : Setup) (p : KeyPress) :
    handleKey setup p s = .ok none s := by
  rw [Session.handleKey, get_bind, h.listening, if_neg Bool.false_ne_true]
  rfl

theorem Awaiting.step_key (h : Awaiting s) (setup : Setup) (p : KeyPress) :
    step setup (.key p) s = (.done, s) := by
  have hperform : perform setup (.key p) s = .ok none s := h.handleKey setup p
  exact step_of_ok hperform

theorem Awaiting.readKeys (h : Awaiting s) (setup : Setup) {keys : List (Nat × KeyPress)}
    (hkeys : s.feed.keys = keys) : Ends (readKeys setup keys) s
      (fun e s' => e = .close ∧ Exhausted s s') fun _ => False := by
  induction keys generalizing s with
  | nil => exact ⟨rfl, hkeys, rfl⟩
  | cons k rest ih =>
    obtain ⟨delay, press⟩ := k
    rw [Session.readKeys, ends_bind]
    refine ends_takeKey_of_none h.presses delay rest fun now => ?_
    let taken : Session := { s with now, feed := ⟨rest, none⟩ }
    have hpassed : Passed s taken := rfl
    have htaken : Awaiting taken := hpassed.awaiting h
    rw [ends_bind]
    refine ends_of_ok (htaken.handleKey setup press) ?_
    exact (ih htaken rfl).mono (fun _ _ hs => ⟨hs.1, hpassed.exhausted hs.2⟩) fun _ => id

theorem Awaiting.readline (h : Awaiting s) (setup : Setup) :
    if s.editor.isClosed then step setup .readline s = (.failed .closed, s)
    else ∃ s', step setup .readline s = (.event .close, s') ∧ Exhausted s s' := by
  split
  · exact step_readline_closed ‹_›
  · rename_i hopen
    have hperform : Ends (perform setup .readline) s
        (fun e s' => e = some .close ∧ Exhausted s s') fun _ => False := by
      refine (ends_map _ _ _).mpr ?_
      rw [Session.readline, ends_bind, ends_get, if_neg hopen]
      exact (h.readKeys setup rfl).mono (fun _ _ hs => ⟨congrArg some hs.1, hs.2⟩) fun _ => id
    obtain ⟨e, s', hstep, rfl, hexhausted⟩ := hperform.replied
    exact ⟨s', hstep, hexhausted⟩

inductive Request.Bides : Request → Prop
  | key (p : KeyPress) : Bides (.key p)
  | readline : Bides .readline
  | wait (time : Nat) : Bides (.wait time)

/-- The sessions to which keys and timers lead from `s`, with the events that they cause. -/
inductive Bided (setup : Setup) (s : Session) : List Event → Session → Prop
  | start : Bided setup s [] s
  | requested {es : List Event} {q : Session} {r : Request} : Bided setup s es q → r.Bides →
      Bided setup s (es ++ (step setup r q).1.event?.toList) (step setup r q).2
  | expired {es : List Event} {q : Session} :
      Bided setup s es q → Bided setup s es (ending (settle setup) q)

def Unaffected (s : Session) (es : List Event) (q : Session) : Prop :=
  es = [] ∧ Passed s q ∨ es = [.close] ∧ s.editor.isClosed = false ∧ Exhausted s q

theorem Unaffected.awaiting {es : List Event} (h : Unaffected s es q) (ha : Awaiting s) :
    Awaiting q := by
  rcases h with ⟨-, hpassed⟩ | ⟨-, -, hexhausted⟩
  · exact hpassed.awaiting ha
  · exact hexhausted.awaiting ha

theorem Unaffected.passed {es : List Event} (h : Unaffected s es q) (hp : Passed q s')
    (hkeys : q.feed.keys = [] → s'.feed.keys = []) : Unaffected s es s' := by
  rcases h with ⟨rfl, hpassed⟩ | ⟨rfl, hopen, hend, hexhausted⟩
  · exact Or.inl ⟨rfl, hpassed.trans hp⟩
  · refine Or.inr ⟨rfl, hopen, hkeys hend, ?_⟩
    unfold Passed at hp
    rw [hexhausted] at hp
    exact hp

theorem Unaffected.readline {es : List Event} (h : Unaffected s es q) (ha : Awaiting s)
    (setup : Setup) : Unaffected s (es ++ (step setup .readline q).1.event?.toList)
      (step setup .readline q).2 := by
  have hread := (h.awaiting ha).readline setup
  split at hread
  · rw [hread]
    simpa [Reply.event?] using h
  · rename_i hopen
    obtain ⟨s', hstep, hexhausted⟩ := hread
    rw [hstep]
    -- An editor that is still open has not come to the end of the keys before.
    rcases h with ⟨rfl, hpassed⟩ | ⟨-, -, hend⟩
    · refine Or.inr ⟨rfl, ?_, hpassed.exhausted hexhausted⟩
      unfold Passed at hpassed
      rw [hpassed] at hopen
      exact Bool.eq_false_iff.mpr hopen
    · rw [hend.2] at hopen
      exact absurd rfl hopen

theorem Bided.unaffected {es : List Event} (h : Bided setup s es q) (ha : Awaiting s) :
    Unaffected s es q := by
  induction h with
  | start => exact Or.inl ⟨rfl, rfl⟩
  | @requested es q r _ hr ih =>
    cases hr with
    | key p =>
      rw [(ih.awaiting ha).step_key setup p]
      simpa [Reply.event?] using ih
    | readline => exact ih.readline ha setup
    | wait time =>
      have hwaited : step setup (.wait time) q = (.done, { q with now := q.now + time }) := rfl
      rw [hwaited]
      have hpassed : Unaffected s es { q with now := q.now + time } := ih.passed rfl id
      simpa [Reply.event?] using hpassed
  | @expired es q _ ih =>
    have hnone := settle_none setup (ih.awaiting ha).presses
    rw [ending, hnone]
    exact ih

theorem Awaiting.step (h : Awaiting s) (setup : Setup) (r : Request) :
    (step setup r s).2.editor.isListening = true ↔ r = .prompt ∧ (step setup r s).1 = .done := by
  have hdeaf {r : Request} {reply : Reply} {s' : Session} (hne : r ≠ .prompt)
      (hs : Session.step setup r s = (reply, s'))
      (he : s'.editor.isListening = s.editor.isListening) :
      (Session.step setup r s).2.editor.isListening = true ↔
        r = .prompt ∧ (Session.step setup r s).1 = .done := by
    rw [hs]
    exact ⟨fun hl => absurd (hl.symm.trans (he.trans h.listening)) (by simp),
      fun hr => absurd hr.1 hne⟩
  cases r with
  | key p => exact hdeaf (by simp) (h.step_key setup p) rfl
  | readline =>
    have hread := h.readline setup
    split at hread
    · exact hdeaf (by simp) hread rfl
    · obtain ⟨s', hstep, hexhausted⟩ := hread
      exact hdeaf (by simp) hstep (by rw [hexhausted.2])
  | prompt =>
    have hprompt : Ends (perform setup .prompt) s
        (fun e s' => e = none ∧ s'.editor.isListening = true)
        fun s' => s'.editor.isListening = false := by
      refine (ends_seqRight _ _ _).mpr ?_
      refine (ends_showPrompt_redrew setup true).mono (fun _ s' hs => ?_) fun a ha => ?_
      · obtain ⟨a, -, rfl⟩ := hs
        exact ⟨rfl, rfl⟩
      · exact ha.isListening.trans h.listening
    have hreplied := hprompt.step
    rcases hstep : Session.step setup .prompt s with ⟨_ | _ | _, s'⟩ <;> rw [hstep] at hreplied
    · simp [hreplied.2]
    · cases hreplied.1
    · have hdeaf' : s'.editor.isListening = false := hreplied
      simp [hdeaf']
  | print t =>
    have hprint : Ends (perform setup (.print t)) s
        (fun _ s' => s'.editor.isListening = s.editor.isListening)
        fun s' => s'.editor.isListening = s.editor.isListening := by
      refine (ends_seqRight _ _ _).mpr ((ends_drawAll setup _).imp fun hd => ?_)
      exact hd.redrew.isListening
    have hreplied := hprint.step
    rcases hstep : Session.step setup (.print t) s with ⟨_ | _ | _, s'⟩ <;>
      rw [hstep] at hreplied <;> rw [← hstep] <;> exact hdeaf (by simp) hstep hreplied
  | _ => exact hdeaf (by simp) rfl rfl

/-- While a session does not listen there is nothing of a text in it, and no key and no timer does
anything; reading a line drops the keys to come and closes the editor at their end, once. This lasts
until a prompt succeeds. -/
theorem awaiting_undisturbed (h : Reachable setup s) (hl : s.editor.isListening = false) :
    s.editor.Idle ∧ settle setup s = .ok () s ∧
      (∀ p, step setup (.key p) s = (.done, s)) ∧
      (if s.editor.isClosed then step setup .readline s = (.failed .closed, s)
        else ∃ s', step setup .readline s = (.event .close, s') ∧ Exhausted s s') ∧
      (∀ es q, Bided setup s es q → Unaffected s es q) ∧
      ∀ r, (step setup r s).2.editor.isListening = true ↔
        r = .prompt ∧ (step setup r s).1 = .done := by
  have hquiescent := h.quiescent
  have hawaiting := hquiescent.awaiting hl
  exact ⟨hquiescent.idle hl, settle_none setup hawaiting.presses, hawaiting.step_key setup,
    hawaiting.readline setup, fun _ _ hbided => hbided.unaffected hawaiting, hawaiting.step setup⟩

/-- The prompt after a command fails while it is drawn. A copy key and the rest of the input are
dropped then. -/
theorem failed_prompt_undisturbed : ∃ s q, Reachable (Setup.failing [19]) s ∧
    s.editor.isListening = false ∧ s.editor.promptNumber = 2 ∧ s.feed.keys.length = 2 ∧
    Bided (Setup.failing [19]) s [.close] q ∧ s.editor.Idle ∧ Exhausted s q := by
  let setup := Setup.failing [19]
  let keys : List (Nat × KeyPress) := [(0, .ofChar 'a'), (0, .ofName .enter), (10, .ofName .tab),
    (700, .ofChar 'x')]
  have hrun : (create setup .standard [] keys).toOption.any (fun created =>
      let s := (run setup [.subscribe, .readline, .prompt] created).2
      let q := (step setup (.key (.ofCtrl 'y')) s).2
      s.editor.isListening == false && s.editor.promptNumber == 2 && s.feed.keys.length == 2 &&
        s.editor.isClosed == false && (step setup .readline q).1 == .event .close) = true := by
    decide +kernel
  obtain ⟨created, hcreated, hfacts⟩ := (Option.any_eq_true _ _).mp hrun
  have hreach := (Reachable.created (created_of_toOption hcreated)).run
    [.subscribe, .readline, .prompt]
  generalize (run setup [.subscribe, .readline, .prompt] created).2 = s at hfacts hreach
  simp only [Bool.and_eq_true, beq_iff_eq] at hfacts
  obtain ⟨⟨⟨⟨hl, hnumber⟩, hkeys⟩, hopen⟩, hclose⟩ := hfacts
  obtain ⟨hidle, -, hkey, -, hbided, -⟩ := awaiting_undisturbed hreach hl
  have hpressed := (@Bided.start setup s).requested (.key (.ofCtrl 'y'))
  have hread := hpressed.requested .readline
  rw [hclose, hkey] at hread
  have hread : Bided setup s [.close] _ := hread
  obtain ⟨hnone, -⟩ | ⟨-, -, hexhausted⟩ := hbided _ _ hread
  · cases hnone
  · exact ⟨s, _, hreach, hl, hnumber, hkeys, hread, hidle, hexhausted⟩

end Promptline.Session
