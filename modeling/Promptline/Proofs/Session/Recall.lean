import Promptline.Proofs.History.Submissions
import Promptline.Proofs.Session.Drawing
import Promptline.Proofs.Session.Freshness

set_option autoImplicit false

namespace Promptline.Session

open Keys

def Event.command? : Event → Option Text
  | .command t => some t
  | .close => none

def Reply.command? (r : Reply) : Option Text := r.event?.bind Event.command?

/-- The sessions of a run, with the commands published since the session was created. -/
inductive Logged (setup : Setup) : List Text → Session → Prop
  | created {size : Size} {clipboard : Text} {keys : List (Nat × KeyPress)} {s : Session} :
      create setup size clipboard keys = .ok s → Logged setup [] s
  | requested {ts : List Text} {s : Session} (r : Request) : Logged setup ts s →
      Logged setup (ts ++ (step setup r s).1.command?.toList) (step setup r s).2
  | expired {ts : List Text} {s : Session} :
      Logged setup ts s → Logged setup ts (ending (settle setup) s)

def Heard (es : List Event) (s s' : Session) : Prop :=
  ∀ (i : Nat) (r : Subscriber), s.subscribers[i]? = some r →
    ∃ r', s'.subscribers[i]? = some r' ∧ (r'.isLive = true → r'.received = r.received ++ es)

/-- The history is that of the commands `ts`, and nothing has been published since `start`. -/
structure Logs (setup : Setup) (start : Session) (ts : List Text) (s : Session) : Prop where
  records : History.Records setup.config.historyCap ts s.editor.history
  armed : s.editor.presses ≠ none → s.editor.isListening = true
  subscribers : s.subscribers = start.subscribers

/-- What a request that does not fail does to the log. After a command nothing is left of what was
done to the history before. -/
structure LogStep (setup : Setup) (ts : List Text) (s : Session) (e : Option Event) (s' : Session) :
    Prop where
  records : History.Records setup.config.historyCap (ts ++ (e.bind Event.command?).toList)
    s'.editor.history
  armed : s'.editor.presses ≠ none → s'.editor.isListening = true
  heard : Heard e.toList s s'
  collapsed : ∀ t, e = some (.command t) →
    s'.editor.history = History.ofSubmissions setup.config.historyCap (ts ++ [t]) ∧
      s'.editor.presses = none

variable {setup : Setup} {start s s' : Session} {ts : List Text} {t : Text}

theorem Logs.keep (h : Logs setup start ts s) (hhistory : s'.editor.history = s.editor.history)
    (harmed : s'.editor.presses ≠ none → s'.editor.isListening = true)
    (hsubscribers : s'.subscribers = s.subscribers) : Logs setup start ts s' := by
  refine ⟨?_, harmed, hsubscribers.trans h.subscribers⟩
  rw [hhistory]
  exact h.records

theorem Logs.redrew (h : Logs setup start ts s) (hr : Redrew s s') : Logs setup start ts s' := by
  refine h.keep hr.history ?_ hr.subscribers
  rw [hr.presses, hr.isListening]
  exact h.armed

theorem Logs.redraw (h : Logs setup start ts s) (jump : Bool) :
    Ends (redraw setup jump) s (fun _ => Logs setup start ts) (Logs setup start ts) :=
  (ends_redraw setup jump).imp h.redrew

theorem Logs.showPrompt (h : Logs setup start ts s) (onNewLine : Bool) :
    Ends (showPrompt setup onNewLine) s (fun _ => Logs setup start ts) (Logs setup start ts) := by
  have hcleared : Logs setup start ts s.atPrompt := h.keep rfl h.armed rfl
  refine (ends_showPrompt_redrew setup onNewLine).mono (fun _ s' hs => ?_) fun _ => hcleared.redrew
  obtain ⟨a, ha, rfl⟩ := hs
  exact (hcleared.redrew ha).keep rfl (fun _ => rfl) rfl

/-- A submission records the text and publishes it. -/
theorem ends_submit_quiet (hquiet : ∀ n, setup.fails n = false) :
    Ends (submit setup) s (fun e s' => e = .command s.editor.buffer.text ∧
      s'.editor.history = s.editor.history.commit s.editor.buffer.text ∧
      s'.editor.presses = s.editor.presses ∧
      s'.subscribers = s.subscribers.map (Subscriber.receive e)) fun _ => False := by
  simp only [submit, recordSubmission, ends_bind, ends_get, ends_modifyEditor, ends_note]
  refine (ends_redraw_quiet hquiet true).mono (fun _ a ha => ?_) fun _ ha => ha
  refine ends_drawAll_ok hquiet _ ?_
  simp only [handOver, ends_bind, ends_modifyEditor, ends_publish, ends_pure]
  refine ⟨trivial, ha.history, ha.presses, ?_⟩
  rw [ha.subscribers]

theorem heard_of_eq (h : s'.subscribers = s.subscribers) : Heard [] s s' := by
  intro i r hr
  rw [h]
  exact ⟨r, hr, fun _ => (List.append_nil _).symm⟩

theorem heard_of_receive {e : Event}
    (h : s'.subscribers = s.subscribers.map (Subscriber.receive e)) : Heard [e] s s' := by
  intro i r hr
  refine ⟨r.receive e, ?_, fun hlive => ?_⟩
  · rw [h, List.getElem?_map, hr]
    rfl
  · unfold Subscriber.receive at hlive ⊢
    split
    · rfl
    · rename_i hdead
      rw [if_neg hdead] at hlive
      exact absurd hlive hdead

theorem logs_invariant (hquiet : ∀ n, setup.fails n = false) (start : Session) (ts : List Text) :
    Invariant setup (fun _ => True) (Logs setup start ts)
      (fun e => LogStep setup ts start (some e)) where
  lineFeed := trivial
  pasted _ := trivial
  armed h := h.armed
  noted _ h := h.keep rfl h.armed rfl
  passed _ _ h := h.keep rfl h.armed rfl
  pressed _ h hl := h.keep rfl (fun _ => hl) rfl
  copied h _ := h.keep rfl h.armed rfl
  synced h _ := ⟨h.records.sync _, h.armed, h.subscribers⟩
  redrawn {s b} jump h _ _ := by
    have hplaced : Logs setup start ts (s.withBuffer b) := h.keep rfl h.armed rfl
    exact hplaced.redraw jump
  edited {s b} h _ _ := by
    have hfollowed : Logs setup start ts (s.withBuffer b).followed :=
      ⟨h.records.sync _, h.armed, h.subscribers⟩
    exact (ends_afterTextChange setup).imp hfollowed.redrew
  browsed {s slot} h _ hslot := by
    have hentries : slot.entries = s.editor.history.entries ∧ slot.cap = s.editor.history.cap :=
      hslot.elim History.prev?_entries History.next?_entries
    have hbrowsed : Logs setup start ts (s.browsed slot) :=
      ⟨h.records.of_entries hentries, h.armed, h.subscribers⟩
    exact hbrowsed.redraw true
  cleared h _ := (ends_clearScreen setup).imp h.redrew
  submitted {s} h _ hp _ := by
    refine (ends_submit_quiet hquiet).mono (fun e s' hs => ?_) fun _ => False.elim
    obtain ⟨rfl, hhistory, hpresses, hsubscribers⟩ := hs
    have hcommitted : s'.editor.history = History.ofSubmissions setup.config.historyCap
        (ts ++ [s.editor.buffer.text]) := hhistory.trans (h.records.commit_eq _)
    have hnone : s'.editor.presses = none := hpresses.trans hp
    rw [h.subscribers] at hsubscribers
    refine ⟨?_, fun harmed => absurd hnone harmed, heard_of_receive hsubscribers, fun t ht => ?_⟩
    · rw [hcommitted]
      exact History.records_ofSubmissions _ _
    · cases ht
      exact ⟨hcommitted, hnone⟩
  prompted h := h.showPrompt true
  closed {s} h := by
    simp only [close, ends_bind, ends_get, ends_modifyEditor, ends_note, ends_publish, ends_pure]
    refine ⟨?_, h.armed, heard_of_receive ?_, by simp⟩
    · simpa [Event.command?] using h.records
    · exact congrArg (List.map _) h.subscribers

theorem Logs.logStep (h : Logs setup s ts s') : LogStep setup ts s none s' := by
  refine ⟨?_, h.armed, heard_of_eq h.subscribers, by simp⟩
  simpa using h.records

theorem LogStep.of_editor (h : Logs setup s ts s) (he : s'.editor = s.editor)
    (hheard : Heard [] s s') : LogStep setup ts s none s' := by
  refine ⟨?_, ?_, hheard, by simp⟩
  · rw [he]
    simpa using h.records
  · rw [he]
    exact h.armed

theorem heard_unsubscribe (s : Session) (index : Nat) :
    Heard [] s { s with
      subscribers := s.subscribers.modify index fun r => { r with isLive := false } } := by
  intro i r hr
  simp only [List.getElem?_modify, hr]
  by_cases hi : index = i
  · simp [hi]
  · simp [hi]

theorem heard_subscribe (s : Session) (new : List Subscriber) :
    Heard [] s { s with subscribers := s.subscribers ++ new } := by
  intro i r hr
  have hlt : i < s.subscribers.length := (List.getElem?_eq_some_iff.mp hr).1
  refine ⟨r, ?_, fun _ => (List.append_nil _).symm⟩
  simp only [List.getElem?_append_left hlt, hr]

theorem Logs.perform (hquiet : ∀ n, setup.fails n = false) (h : Logs setup s ts s) (r : Request) :
    Ends (perform setup r) s (LogStep setup ts s) fun s' => LogStep setup ts s none s' := by
  have hinv := logs_invariant hquiet s ts
  have hanswered {e : Option Event} {s' : Session}
      (he : Answered (Logs setup s ts) (fun e => LogStep setup ts s (some e)) e s') :
      LogStep setup ts s e s' := by
    cases e with
    | none => exact Logs.logStep he
    | some e => exact he
  have hkept (s' : Session) (he : s'.editor = s.editor) (hs : s'.subscribers = s.subscribers) :
      LogStep setup ts s none s' := .of_editor h he (heard_of_eq hs)
  cases r with
  | key p =>
    exact (hinv.handleKey h fun _ _ => trivial).mono (fun _ _ => hanswered) fun _ => Logs.logStep
  | readline =>
    exact (ends_map _ _ _).mpr ((hinv.readline (fun _ _ _ _ => trivial) h).mono
      (fun _ _ he => he) fun _ => Logs.logStep)
  | prompt => exact (ends_seqRight _ _ _).mpr ((h.showPrompt true).imp Logs.logStep)
  | print t => exact (ends_seqRight _ _ _).mpr ((ends_drawAll setup _).imp fun hd =>
      (h.redrew hd.redrew).logStep)
  | subscribe => exact (ends_seqRight _ _ _).mpr (.of_editor h rfl (heard_subscribe s _))
  | unsubscribe index =>
    exact (ends_seqRight _ _ _).mpr (.of_editor h rfl (heard_unsubscribe s index))
  | _ => exact (ends_seqRight _ _ _).mpr (hkept _ rfl rfl)

theorem Logs.step (hquiet : ∀ n, setup.fails n = false) (h : Logs setup s ts s) (r : Request) :
    LogStep setup ts s (step setup r s).1.event? (step setup r s).2 := by
  have hreplied := (h.perform hquiet r).step
  rcases hstep : Session.step setup r s with ⟨_ | _ | _, s'⟩ <;> rw [hstep] at hreplied <;>
    exact hreplied

theorem Logs.settle (hquiet : ∀ n, setup.fails n = false) (h : Logs setup s ts s) :
    Logs setup s ts (ending (settle setup) s) :=
  Ends.ending (((logs_invariant hquiet s ts).settle h).mono (fun _ _ hs => hs.1) fun _ hs => hs)

theorem Logs.rebase (h : Logs setup start ts s) : Logs setup s ts s := ⟨h.records, h.armed, rfl⟩

theorem Logged.logs (hquiet : ∀ n, setup.fails n = false) (h : Logged setup ts s) :
    Logs setup s ts s := by
  induction h with
  | @created size clipboard keys s hs =>
    let first := initial setup size clipboard keys
    have hfirst : Logs setup first [] first :=
      ⟨History.records_new _, fun harmed => absurd rfl harmed, rfl⟩
    exact ((hfirst.showPrompt false).created hs).rebase
  | requested r _ ih =>
    have hstep := ih.step hquiet r
    exact ⟨hstep.records, hstep.armed, rfl⟩
  | expired _ ih => exact (ih.settle hquiet).rebase

theorem Logged.run (h : Logged setup ts s) (rs : List Request) :
    Logged setup (ts ++ (run setup rs s).1.filterMap Reply.command?) (run setup rs s).2 := by
  induction rs generalizing ts s with
  | nil => simpa [Session.run] using h
  | cons r rest ih =>
    have hrest := ih (h.requested r)
    cases hc : (Session.step setup r s).1.command? <;>
      simpa [Session.run, hc, List.filterMap_cons] using hrest

theorem Logged.reachable (h : Logged setup ts s) : Reachable setup s := by
  induction h with
  | created hs => exact .created hs
  | requested r _ ih => exact ih.requested r
  | expired _ ih => exact ih.expired

theorem ends_showPrompt_quiet (hquiet : ∀ n, setup.fails n = false) :
    Ends (showPrompt setup true) s (fun _ s' => s'.editor.isListening = true ∧
      s'.editor.buffer.text = [] ∧ s'.editor.history = s.editor.history ∧
      s'.editor.presses = s.editor.presses) fun _ => False := by
  simp only [showPrompt, ends_bind, ends_modifyEditor, if_true]
  refine ends_draw_ok hquiet _ ?_
  exact (ends_redraw_quiet hquiet false).mono
    (fun _ a ha => ⟨trivial, ha.text, ha.history, ha.presses⟩) fun _ ha => ha

structure Recalls (setup : Setup) (ts : List Text) (t : Text) (s : Session) : Prop where
  text : Submittable t
  visible : Text.isBlank t = false
  history : s.editor.history = History.ofSubmissions setup.config.historyCap (ts ++ [t])
  presses : s.editor.presses = none

theorem Recalls.ready {e : Editor} (h : Recalls setup ts t s) (hfresh : e.Fresh)
    (ht : e.buffer.text = t) : e.readiness = .ready := by
  have hne : t ≠ [] := by
    rintro rfl
    exact absurd h.visible (by decide)
  rw [hfresh.readiness, hfresh.frames, ht, if_neg hne]
  exact h.text.resolve_left hne

/-- Up on an empty first line shows the last command, which is complete. -/
theorem Recalls.up (hquiet : ∀ n, setup.fails n = false) (h : Recalls setup ts t s)
    (hl : s.editor.isListening = true) (hempty : s.editor.buffer.text = []) {p : KeyPress}
    (hp : Action.ofPress? p = some .up) :
    Ends (handleKey setup p) s (fun e s' => e = none ∧ s'.editor.isListening = true ∧
      s'.editor.presses = none ∧ s'.editor.buffer.text = t ∧ s'.editor.readiness = .ready ∧
      History.Records setup.config.historyCap (ts ++ [t]) s'.editor.history) fun _ => False := by
  obtain ⟨slot, hprev, hshown⟩ := History.ofSubmissions_prev? setup.config.historyCap ts h.visible
  have hfirst : s.editor.buffer.isOnFirstLine = true := by
    have hbefore : s.editor.buffer.before = [] := (List.append_eq_nil_iff.mp hempty).1
    simp [Buffer.isOnFirstLine, hbefore]
  refine ends_handleKey_of_settled hl hp h.presses ⟨by simp, by simp⟩ ?_
  refine (ends_seqRight _ _ _).mpr ?_
  rw [moveUp, ends_bind, ends_get, if_pos hfirst, browse, ends_bind, ends_get, h.history, hprev]
  refine (ends_redraw_quiet hquiet true).mono (fun _ s' hs => ?_) fun _ hs => hs
  have htext : s'.editor.buffer.text = t := by
    rw [hs.text]
    change slot.shown?.getD [] ++ [] = t
    rw [hshown, List.append_nil, Option.getD_some]
  have hfresh : s'.editor.Fresh :=
    (Editor.rescan_fresh _).keep hs.text hs.frames hs.readiness
  have hrecords := History.records_ofSubmissions setup.config.historyCap (ts ++ [t])
  refine ⟨rfl, hs.isListening.trans hl, hs.presses.trans h.presses, htext, h.ready hfresh htext, ?_⟩
  rw [hs.history]
  exact hrecords.of_entries (History.prev?_entries hprev)

theorem Recalls.again (hquiet : ∀ n, setup.fails n = false) (h : Recalls setup ts t s)
    {up enter : KeyPress} (hup : Action.ofPress? up = some .up)
    (henter : Action.ofPress? enter = some .enter) :
    ∃ last, run setup [.prompt, .key up, .key enter] s =
        ([.done, .done, .event (.command t)], last) ∧
      last.editor.history.entries = s.editor.history.entries := by
  have hprompt : Ends (perform setup .prompt) s (fun e a => e = none ∧
      a.editor.isListening = true ∧ a.editor.buffer.text = [] ∧ Recalls setup ts t a)
      fun _ => False :=
    (ends_seqRight _ _ _).mpr ((ends_showPrompt_quiet hquiet).mono
      (fun _ a ha => ⟨rfl, ha.1, ha.2.1, h.text, h.visible, ha.2.2.1.trans h.history,
        ha.2.2.2.trans h.presses⟩) fun _ ha => ha)
  obtain ⟨_, a, hstepped, rfl, hl, hempty, ha⟩ := hprompt.replied
  obtain ⟨_, b, hshown, rfl, hlb, hnone, htext, hready, hrecords⟩ :=
    Ends.replied (r := .key up) (ha.up hquiet hl hempty hup)
  have hsubmit : Ends (perform setup (.key enter)) b (fun e c => e = some (.command t) ∧
      c.editor.history = b.editor.history.commit t) fun _ => False := by
    refine ends_handleKey_of_settled hlb henter hnone ⟨by simp, by simp⟩ ?_
    change Ends (Session.enter setup) _ _ _
    rw [Session.enter, ends_bind, ends_get, if_pos hready, ends_map]
    refine (ends_submit_quiet hquiet).mono (fun e c hc => ?_) fun _ hc => hc
    obtain ⟨rfl, hhistory, -, -⟩ := hc
    rw [← htext]
    exact ⟨rfl, hhistory⟩
  obtain ⟨_, c, hsubmitted, rfl, hhistory⟩ := hsubmit.replied
  refine ⟨c, ?_, ?_⟩
  · simp only [run, hstepped, hshown, hsubmitted, Reply.ofEvent?]
  · rw [hhistory, hrecords.commit_eq, h.history]
    simp only [History.ofSubmissions, History.kept_concat_self]

/-- The slots of the history hold the commands published so far, and nothing but a command changes
them. After a command that is not blank, a prompt, Up and Enter publish it again and leave the
history as it is. -/
theorem history_is_command_log (hquiet : ∀ n, setup.fails n = false) (h : Logged setup ts s) :
    (∀ i, (s.editor.history.slot? (i + 1)).map History.Entry.committed =
        (History.kept setup.config.historyCap ts)[i]?) ∧
      (ending (settle setup) s).subscribers = s.subscribers ∧
      ∀ r reply s', step setup r s = (reply, s') →
        Heard reply.event?.toList s s' ∧
        ((∀ t, reply ≠ .event (.command t)) → ∀ i,
          (s'.editor.history.slot? (i + 1)).map History.Entry.committed =
            (s.editor.history.slot? (i + 1)).map History.Entry.committed) ∧
        ∀ t, reply = .event (.command t) → Text.isBlank t = false → ∀ up enter,
          Action.ofPress? up = some .up → Action.ofPress? enter = some .enter →
          ∃ last, run setup [.prompt, .key up, .key enter] s' =
              ([.done, .done, .event (.command t)], last) ∧
            last.editor.history.entries = s'.editor.history.entries := by
  have hlogs := h.logs hquiet
  refine ⟨hlogs.records.slot_committed, (hlogs.settle hquiet).subscribers, ?_⟩
  intro r reply s' hstep
  have hlogged := hlogs.step hquiet r
  have hsubmittable := (h.reachable.sound.step setup r).2.2
  rw [hstep] at hlogged hsubmittable
  refine ⟨hlogged.heard, fun hother i => ?_, ?_⟩
  · have hnone : reply.event?.bind Event.command? = none := by
      cases reply with
      | event e =>
        cases e with
        | command t => exact absurd rfl (hother t)
        | close => rfl
      | _ => rfl
    have hrecords := hlogged.records
    rw [hnone, Option.toList_none, List.append_nil] at hrecords
    rw [hrecords.slot_committed, hlogs.records.slot_committed]
  · rintro t rfl hvisible up enter hup henter
    obtain ⟨hhistory, hnone⟩ := hlogged.collapsed t rfl
    exact Recalls.again hquiet ⟨hsubmittable t rfl, hvisible, hhistory, hnone⟩ hup henter

/-- After two commands the second one is recalled and submitted again. -/
theorem second_command_recalled : ∃ s s', Logged Setup.plain ["a".toList] s ∧
    step Setup.plain (.key (.ofName .enter)) s = (.event (.command "b".toList), s') ∧
    (s.editor.history.slot? 1).map History.Entry.committed = some "a".toList ∧
    ∃ last, run Setup.plain [.prompt, .key (.ofName .up), .key (.ofName .enter)] s' =
        ([.done, .done, .event (.command "b".toList)], last) ∧
      last.editor.history.entries = s'.editor.history.entries := by
  let typed := (KeyPress.typing "a\n".toList).map Request.key ++ [.prompt, .key (.ofChar 'b')]
  have hrun : (create Setup.plain .standard [] []).toOption.any (fun s =>
      (run Setup.plain typed s).1.filterMap Reply.command? == ["a".toList] &&
        (step Setup.plain (.key (.ofName .enter)) (run Setup.plain typed s).2).1 ==
          .event (.command "b".toList)) = true := by
    decide +kernel
  obtain ⟨s, hs, hfacts⟩ := (Option.any_eq_true _ _).mp hrun
  simp only [Bool.and_eq_true, beq_iff_eq] at hfacts
  have hlogged := (Logged.created (created_of_toOption hs)).run typed
  generalize run Setup.plain typed s = reached at hfacts hlogged
  obtain ⟨hcommands, hreply⟩ := hfacts
  rw [hcommands] at hlogged
  have hquiet : ∀ n, Setup.plain.fails n = false := fun _ => rfl
  obtain ⟨hslots, -, hsteps⟩ := history_is_command_log hquiet hlogged
  refine ⟨_, _, hlogged, Prod.ext hreply rfl, hslots 0, ?_⟩
  exact (hsteps _ _ _ (Prod.ext hreply rfl)).2.2 _ rfl rfl _ _ rfl rfl

end Promptline.Session
