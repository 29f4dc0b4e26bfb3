import Promptline.Proofs.Session.Awaiting
import Promptline.Proofs.Session.Browsing

set_option autoImplicit false

namespace Promptline

/-- There is always a slot to type into. -/
theorem History.Records.shown?_of_index {cap : Option Nat} {ts : List Text} {h : History}
    (hr : History.Records cap ts h) (hzero : h.index = 0) : h.shown?.isSome := by
  have hlength := congrArg List.length hr.reverted
  rw [List.length_map, History.ofSubmissions, List.length_cons] at hlength
  rw [History.shown?_isSome, hzero, hlength]
  exact Nat.succ_pos _

namespace Session

open Keys

variable {setup : Setup} {s s' t u q : Session} {ts : List Text} {p : KeyPress}

/-- The history is that of `t` but for the live value of the slot shown. That one is the text, as soon
as the text has been changed. -/
structure KeepsSlot (t s : Session) : Prop where
  listening : s.editor.isListening = true
  index : s.editor.history.index = t.editor.history.index
  synced : s.editor.history = t.editor.history ∧ s.editor.buffer.text = t.editor.buffer.text ∨
    s.editor.history.entries = (t.editor.history.sync s.editor.buffer.text).entries

theorem KeepsSlot.refl (hl : t.editor.isListening = true) : KeepsSlot t t :=
  ⟨hl, rfl, Or.inl ⟨rfl, rfl⟩⟩

theorem KeepsSlot.keep (h : KeepsSlot t s) (htext : s'.editor.buffer.text = s.editor.buffer.text)
    (hhistory : s'.editor.history = s.editor.history) (hl : s'.editor.isListening = true) :
    KeepsSlot t s' := by
  refine ⟨hl, ?_, ?_⟩
  · rw [hhistory]
    exact h.index
  · rw [hhistory, htext]
    exact h.synced

theorem KeepsSlot.sync (h : KeepsSlot t s)
    (hhistory : s'.editor.history = s.editor.history.sync s'.editor.buffer.text)
    (hl : s'.editor.isListening = true) : KeepsSlot t s' := by
  refine ⟨hl, ?_, Or.inr ?_⟩
  · rw [hhistory]
    exact h.index
  · rw [hhistory]
    rcases h.synced with ⟨hsame, -⟩ | hentries
    · rw [hsame]
    · have hstays : Stays t s := ⟨h.listening, h.index, hentries⟩
      exact hstays.sync_entries _

theorem keepsSlot_editing (setup : Setup) (t : Session) :
    EditInvariant setup (fun _ => True) (KeepsSlot t) where
  lineFeed := trivial
  pasted _ := trivial
  armed h _ := h.listening
  noted _ h := h.keep rfl rfl h.listening
  pressed _ h hl := h.keep rfl rfl hl
  copied h _ := h.keep rfl rfl h.listening
  redrawn {s b} jump h hl htext := (ends_redraw setup jump).imp fun hr =>
    h.keep (hr.text.trans htext) hr.history (hr.isListening.trans hl)
  edited {s b} h hl _ := by
    have hsync {s' : Session} (hr : Redrew (s.withBuffer b).followed s') : KeepsSlot t s' := by
      refine h.sync ?_ (hr.isListening.trans hl)
      rw [hr.history, hr.text]
      rfl
    exact (ends_afterTextChange setup).imp hsync
  cleared h hl :=
    (ends_clearScreen setup).imp fun hr => h.keep hr.text hr.history (hr.isListening.trans hl)

structure StaysAt (setup : Setup) (s : Session) (p : KeyPress) : Prop where
  continues : Continues setup s p
  up : Action.ofPress? p ≠ some .up
  down : Action.ofPress? p ≠ some .down

theorem staysAt_of_insert {x : Text} (hp : Action.ofPress? p = some (.insert x)) :
    StaysAt setup s p := by
  refine ⟨fun action ha => ?_, by simp [hp], by simp [hp]⟩
  cases hp.symm.trans ha
  exact ⟨by simp, by simp, by simp⟩

theorem EditInvariant.handleKey {P : Session → Prop}
    (inv : EditInvariant setup (fun _ => True) P) (h : P s) (hl : s.editor.isListening = true)
    (hp : StaysAt setup s p) : Ends (handleKey setup p) s (fun _ => P) P := by
  cases ha : Action.ofPress? p with
  | none => exact ends_of_ok (handleKey_of_none ha) h
  | some action =>
    have hnoted := inv.noted (.keyPress action) h
    have hslot : ¬ (action = .up ∨ action = .down) := by
      rintro (rfl | rfl)
      · exact hp.up ha
      · exact hp.down ha
    rw [Session.handleKey, ends_bind, ends_get, if_pos hl, ha, ends_bind, ends_note]
    refine ends_applyAction_of_settled (inv.pressTwiceKey hnoted hl) ?_
    refine ((ends_ok _ _).and (inv.settle hnoted)).mono (fun _ q hq => ?_) fun _ hq => hq.2
    obtain ⟨hok, hkept, hlistening, -⟩ := hq
    have hedit := hp.continues.edits ha hok hslot
    exact (inv.runAction hkept (hlistening.trans hl) hedit fun _ _ => trivial).mono
      (fun _ _ hs => hs.2) fun _ hs => hs

inductive TypedAt (setup : Setup) (t : Session) : Session → Prop
  | start : TypedAt setup t t
  | around {s s' : Session} : TypedAt setup t s → s'.editor = s.editor → TypedAt setup t s'
  | expired {s : Session} : TypedAt setup t s → TypedAt setup t (ending (settle setup) s)
  | pressed {s : Session} {p : KeyPress} : TypedAt setup t s → StaysAt setup s p →
      TypedAt setup t (step setup (.key p) s).2

theorem TypedAt.keepsSlot (h : TypedAt setup t u) (hl : t.editor.isListening = true) :
    KeepsSlot t u := by
  have hinv := keepsSlot_editing setup t
  induction h with
  | start => exact KeepsSlot.refl hl
  | around _ he ih => exact ih.keep (by rw [he]) (by rw [he]) (by rw [he]; exact ih.listening)
  | expired _ ih => exact Ends.ending ((hinv.settle ih).mono (fun _ _ hs => hs.1) fun _ hs => hs)
  | @pressed s p _ hp ih =>
    have hreplied : Replied (fun _ => KeepsSlot t) (KeepsSlot t) (step setup (.key p) s) :=
      Ends.step (hinv.handleKey ih ih.listening hp)
    rcases hstep : step setup (.key p) s with ⟨_ | _ | _, s'⟩ <;> rw [hstep] at hreplied <;>
      exact hreplied

theorem KeepsSlot.slot_ne (h : KeepsSlot t u) {i : Nat} (hi : i ≠ t.editor.history.index) :
    u.editor.history.slot? i = t.editor.history.slot? i := by
  rcases h.synced with ⟨hsame, -⟩ | hentries
  · rw [hsame]
  · have hstays : Stays t u := ⟨h.listening, h.index, hentries⟩
    exact hstays.slot_ne hi

theorem KeepsSlot.linked (h : KeepsSlot t u)
    (hentries : u.editor.history.entries = (t.editor.history.sync u.editor.buffer.text).entries)
    (hslot : t.editor.history.shown?.isSome) : Linked u := by
  obtain ⟨old, hold⟩ := Option.isSome_iff_exists.mp hslot
  have hshown := History.shown?_sync hold u.editor.buffer.text
  have hindex : (t.editor.history.sync u.editor.buffer.text).index = t.editor.history.index := rfl
  rw [History.shown?, History.slot?, hindex, ← hentries, ← h.index] at hshown
  exact hshown

theorem ends_moveUp_quiet (hquiet : ∀ n, setup.fails n = false)
    (hfirst : s.editor.buffer.isOnFirstLine = true) :
    Ends (moveUp setup) s (fun _ s' =>
      (∀ e, s.editor.history.slot? (s.editor.history.index + 1) = some e →
        s'.editor.history.index = s.editor.history.index + 1 ∧
          s'.editor.buffer.text = e.current) ∧
      (s.editor.history.slot? (s.editor.history.index + 1) = none → s' = s)) fun _ => False := by
  rw [moveUp, ends_bind, ends_get, if_pos hfirst, browse, ends_bind, ends_get]
  by_cases hlt : s.editor.history.index + 1 < s.editor.history.entries.length
  · have hprev : s.editor.history.prev? =
        some { s.editor.history with index := s.editor.history.index + 1 } := if_pos hlt
    rw [hprev]
    refine (ends_redraw_quiet hquiet true).mono (fun _ s' hs => ⟨fun e he => ⟨?_, ?_⟩, fun hn => ?_⟩)
      fun _ hs => hs
    · rw [hs.history]
      rfl
    · have hlive : ({ s.editor.history with index := s.editor.history.index + 1 } :
          History).shown? = some e.current := by
        change (s.editor.history.slot? (s.editor.history.index + 1)).map _ = _
        rw [he]
        rfl
      rw [hs.text]
      change (History.shown? _).getD [] ++ [] = _
      rw [hlive, List.append_nil, Option.getD_some]
    · exact absurd hn (by simp [History.slot?, hlt])
  · have hprev : s.editor.history.prev? = none := if_neg hlt
    rw [hprev]
    refine ⟨fun e he => ?_, fun _ => rfl⟩
    exact absurd (List.getElem?_eq_some_iff.mp he).1 hlt

theorem ends_settle_quiet (hquiet : ∀ n, setup.fails n = false) :
    Ends (settle setup) s (fun _ _ => True) fun _ => False := by
  rw [settle, ends_bind, ends_get]
  cases s.editor.presses with
  | none => trivial
  | some pending =>
    obtain ⟨key, deadline⟩ := pending
    simp only [ends_bind, ends_modifyEditor]
    cases key with
    | tab => exact (ends_redraw_quiet hquiet false).mono (fun _ _ _ => trivial) fun _ h => h
    | copy =>
      change Ends (copyText _) _ _ _
      rw [copyText, ends_bind, ends_get]
      split <;> trivial

/-- A press of Up, with the session in which it finds the slot shown. -/
theorem KeepsSlot.up (h : KeepsSlot t u) (hquiet : ∀ n, setup.fails n = false)
    (hp : Action.ofPress? p = some .up) :
    ∃ q, Leaves setup p u q ∧ (q.editor.buffer.isOnFirstLine = true →
      (∀ e, t.editor.history.slot? (t.editor.history.index + 1) = some e →
        (step setup (.key p) u).2.editor.history.index = t.editor.history.index + 1 ∧
          (step setup (.key p) u).2.editor.buffer.text = e.current) ∧
      (t.editor.history.slot? (t.editor.history.index + 1) = none →
        (step setup (.key p) u).2 = q)) := by
  -- A pending press is settled first. It may change the text, but only at the slot shown.
  let noted : Session := { u with notices := u.notices ++ [.keyPress .up] }
  have hnoted : KeepsSlot t noted := h.keep rfl rfl h.listening
  have hsettles : Ends (settle setup) noted (fun _ => KeepsSlot t) fun _ => False :=
    (((keepsSlot_editing setup t).settle hnoted).and (ends_settle_quiet hquiet)).mono
      (fun _ _ hs => hs.1.1) fun _ hs => hs.2
  obtain ⟨_, q, hsettled, hq⟩ := hsettles.exists_ok
  have hhandled : handleKey setup p u = (moveUp setup *> pure none) q := by
    rw [handleKey_of_action h.listening hp]
    change (settle setup >>= fun _ => runAction setup .up) noted = _
    simp only [bind, EStateM.bind, hsettled]
    rfl
  refine ⟨q, ⟨Or.inl hp, .up, hp, hsettled⟩, fun hfirst => ?_⟩
  have hslot := hq.slot_ne (Nat.succ_ne_self t.editor.history.index)
  have hup : Ends (perform setup (.key p)) u (fun _ s' =>
      (∀ e, t.editor.history.slot? (t.editor.history.index + 1) = some e →
        s'.editor.history.index = t.editor.history.index + 1 ∧ s'.editor.buffer.text = e.current) ∧
      (t.editor.history.slot? (t.editor.history.index + 1) = none → s' = q)) fun _ => False := by
    change Ends (handleKey setup p) u _ _
    rw [Ends, hhandled, ← hslot, ← hq.index]
    exact (ends_seqRight _ _ _).mpr (ends_moveUp_quiet hquiet hfirst)
  obtain ⟨_, s', hstep, hs'⟩ := hup.replied
  rw [hstep]
  exact hs'

structure Prompted (s t : Session) : Prop where
  listening : t.editor.isListening = true
  text : t.editor.buffer.text = []
  index : t.editor.history.index = s.editor.history.index

theorem ends_showPrompt_prompted (onNewLine : Bool) :
    Ends (showPrompt setup onNewLine) s (fun _ => Prompted s) fun _ => True := by
  refine (ends_showPrompt_redrew setup onNewLine).mono (fun _ t ht => ?_) fun _ _ => trivial
  obtain ⟨a, ha, rfl⟩ := ht
  exact ⟨rfl, ha.text, congrArg History.index ha.history⟩

theorem ends_interrupt_prompted :
    Ends (interrupt setup) s (fun e t => e = none → Prompted s t) fun _ => True := by
  simp only [interrupt, ends_bind, ends_get]
  refine (ends_redraw setup true).mono (fun _ a ha => ?_) fun _ _ => trivial
  -- Where there is no text an interruption closes the editor and shows no prompt.
  split
  · refine (ends_map _ _ _).mpr ?_
    exact (ends_ok close a).mono (fun _ _ _ hnone => absurd hnone (by simp)) fun _ h => h
  · simp only [ends_bind, ends_note, ends_modifyEditor]
    refine (ends_showPrompt_prompted true).mono (fun _ t ht _ => ?_) fun _ h => h
    have hindex : a.editor.history.index = s.editor.history.index :=
      congrArg History.index ha.history
    exact ⟨ht.listening, ht.text, ht.index.trans hindex⟩

theorem ends_handleKey_interrupt (hl : s.editor.isListening = true)
    (hp : Action.ofPress? p = some .interrupt) :
    Ends (handleKey setup p) s (fun e t => e = none → Prompted s t) fun _ => True := by
  have hsettled : Ends (settle setup >>= fun _ => runAction setup .interrupt)
      { s with notices := s.notices ++ [.keyPress .interrupt] }
      (fun e t => e = none → Prompted s t) fun _ => True := by
    rw [ends_bind]
    have hnoted := (keepsSlot_editing setup s).noted (.keyPress .interrupt) (KeepsSlot.refl hl)
    refine ((keepsSlot_editing setup s).settle hnoted).mono (fun _ q hq => ?_) fun _ _ => trivial
    refine ends_interrupt_prompted.mono (fun e t ht he => ?_) fun _ h => h
    exact ⟨(ht he).listening, (ht he).text, (ht he).index.trans hq.1.index⟩
  rw [Ends, handleKey_of_action hl hp]
  exact hsettled

/-- The sessions of a run, those between two keys of one line included, with the commands published
before. -/
inductive Midway (setup : Setup) : List Text → Session → Prop
  | logged {ts : List Text} {s : Session} : Logged setup ts s → Midway setup ts s
  | taken {ts : List Text} {s s' : Session} {delay : Nat} {p : KeyPress}
      {rest : List (Nat × KeyPress)} : Midway setup ts s → s.feed.keys = (delay, p) :: rest →
      takeKey setup delay rest s = .ok () s' → Midway setup ts s'
  | handled {ts : List Text} {s s' : Session} {p : KeyPress} : Midway setup ts s →
      handleKey setup p s = .ok none s' → Midway setup ts s'

theorem Midway.logs (hquiet : ∀ n, setup.fails n = false) (h : Midway setup ts s) :
    Logs setup s ts s := by
  -- `Logs` counts from one session on; each step of the run starts over where the last one ended.
  induction h with
  | logged hs => exact hs.logs hquiet
  | taken _ _ htaken ih =>
    exact (((logs_invariant hquiet _ _).takeKey ih _ _).of_ok htaken).rebase
  | @handled s s' p _ hhandled ih =>
    have hlogs : Logs setup s ts s' :=
      ((logs_invariant hquiet s ts).handleKey ih fun _ _ => trivial).of_ok hhandled
    exact hlogs.rebase

theorem Midway.quiescent (h : Midway setup ts s) : Quiescent s := by
  have hinv := quiescent_invariant setup
  induction h with
  | logged hs => exact hs.reachable.quiescent
  | taken _ _ htaken ih => exact (hinv.takeKey ih _ _).of_ok htaken
  | @handled s s' p _ hhandled ih =>
    have hanswered := (hinv.handleKey ih fun _ _ => trivial).of_ok hhandled
    exact hanswered

/-- A fresh prompt has been shown in `t`. It takes the place of what was shown in `s`, when the
commands `ts` had been published. -/
inductive FreshPrompt (setup : Setup) : List Text → Session → Session → Prop
  | created {size : Size} {clipboard : Text} {keys : List (Nat × KeyPress)} {t : Session} :
      create setup size clipboard keys = .ok t →
      FreshPrompt setup [] (initial setup size clipboard keys) t
  | asked {ts : List Text} {s t : Session} : Midway setup ts s →
      showPrompt setup true s = .ok () t → FreshPrompt setup ts s t
  | interrupted {ts : List Text} {s t : Session} {p : KeyPress} : Midway setup ts s →
      s.editor.isListening = true → Action.ofPress? p = some .interrupt →
      handleKey setup p s = .ok none t → FreshPrompt setup ts s t

theorem FreshPrompt.prompted (h : FreshPrompt setup ts s t) : Prompted s t := by
  cases h with
  | created ht => exact (ends_showPrompt_prompted false).created ht
  | asked _ ht => exact (ends_showPrompt_prompted true).of_ok ht
  | interrupted _ hl hp ht => exact (ends_handleKey_interrupt hl hp).of_ok ht rfl

theorem FreshPrompt.records (hquiet : ∀ n, setup.fails n = false) (h : FreshPrompt setup ts s t) :
    History.Records setup.config.historyCap ts t.editor.history := by
  cases h with
  | created ht => exact ((Logged.created ht).logs hquiet).records
  | asked hs ht => exact (((hs.logs hquiet).showPrompt true).of_ok ht).records
  | interrupted hs _ _ ht => exact ((hs.handled ht).logs hquiet).records

theorem FreshPrompt.awaited (h : FreshPrompt setup ts s t) (hl : s.editor.isListening = false) :
    s.editor.history.index = 0 ∧ ∀ e ∈ t.editor.history.entries, e.current = e.committed := by
  cases h with
  | created => cases hl
  | asked hs ht =>
    have hidle := hs.quiescent.idle hl
    obtain ⟨a, ha, rfl⟩ := (ends_showPrompt_redrew setup true).of_ok ht
    refine ⟨hidle.index, ?_⟩
    change ∀ e ∈ a.editor.history.entries, _
    rw [ha.history]
    exact hidle.reverted
  | interrupted _ hlistening => exact absurd (hl.symm.trans hlistening) (by simp)

/-- A fresh prompt stays at the slot that was shown before. So it is at the newest slot unless it takes
the place of a prompt at which an old entry was shown. What is typed at it becomes the live value of
that slot and of no other, and Up on the first line shows the slot above, which at the newest one
holds the last submission. -/
theorem fresh_prompt_keeps_slot (hquiet : ∀ n, setup.fails n = false)
    (h : FreshPrompt setup ts s t) :
    (t.editor.history.index = 0 ↔
      s.editor.isListening = false ∨ s.editor.history.index = 0) ∧
    t.editor.history.index = s.editor.history.index ∧
    (∀ i, (t.editor.history.slot? (i + 1)).map History.Entry.committed =
      (History.kept setup.config.historyCap ts)[i]?) ∧
    (s.editor.isListening = false →
      ∀ e ∈ t.editor.history.entries, e.current = e.committed) ∧
    ∀ u, TypedAt setup t u →
      u.editor.history.index = t.editor.history.index ∧
      (∀ i, i ≠ t.editor.history.index →
        u.editor.history.slot? i = t.editor.history.slot? i) ∧
      (u.editor.history = t.editor.history ∧ u.editor.buffer.text = [] ∨
        u.editor.history.entries = (t.editor.history.sync u.editor.buffer.text).entries ∧
          (t.editor.history.index = 0 → Linked u)) ∧
      ∀ p, Action.ofPress? p = some .up →
        ∃ q, Leaves setup p u q ∧ (q.editor.buffer.isOnFirstLine = true →
          (∀ e, t.editor.history.slot? (t.editor.history.index + 1) = some e →
            (step setup (.key p) u).2.editor.history.index = t.editor.history.index + 1 ∧
              (step setup (.key p) u).2.editor.buffer.text = e.current) ∧
          (t.editor.history.slot? (t.editor.history.index + 1) = none →
            (step setup (.key p) u).2 = q)) := by
  have hprompted := h.prompted
  refine ⟨?_, hprompted.index, (h.records hquiet).slot_committed, fun hl => (h.awaited hl).2,
    fun u hu => ?_⟩
  · rw [hprompted.index]
    exact ⟨Or.inr, fun hor => hor.elim (fun hl => (h.awaited hl).1) id⟩
  · have hkeeps := hu.keepsSlot hprompted.listening
    refine ⟨hkeeps.index, fun i => hkeeps.slot_ne, ?_, fun p hp => hkeeps.up hquiet hp⟩
    have hsynced := hkeeps.synced
    rw [hprompted.text] at hsynced
    refine hsynced.imp_right fun hentries => ⟨hentries, fun hzero => ?_⟩
    exact hkeeps.linked hentries ((h.records hquiet).shown?_of_index hzero)

/-- After a command, a text is interrupted and another one typed, from which Up leads to the command. -/
theorem typed_after_interruption : ∃ s t u, FreshPrompt Setup.plain ["a".toList] s t ∧
    s.editor.isListening = true ∧ s.editor.buffer.text = "x".toList ∧
    t.editor.history.index = 0 ∧ TypedAt Setup.plain t u ∧ u.editor.buffer.text = "y".toList ∧
    u.editor.history.index = 0 ∧ Linked u ∧
    (step Setup.plain (.key (.ofName .up)) u).2.editor.buffer.text = "a".toList := by
  let typed := (KeyPress.typing "a\n".toList).map Request.key ++ [.prompt, .key (.ofChar 'x')]
  have hrun : (create Setup.plain .standard [] []).toOption.any (fun created =>
      let s := (run Setup.plain typed created).2
      let t := (step Setup.plain (.key (.ofCtrl 'c')) s).2
      let u := (step Setup.plain (.key (.ofChar 'y')) t).2
      (run Setup.plain typed created).1.filterMap Reply.command? == ["a".toList] &&
        s.editor.isListening && s.editor.buffer.text == "x".toList && s.editor.history.index == 0 &&
        (step Setup.plain (.key (.ofCtrl 'c')) s).1 == .done &&
        t.editor.history.slot? 1 == some ⟨"a".toList, "a".toList, none⟩ &&
        u.editor.buffer.text == "y".toList && u.editor.presses == none &&
        u.editor.buffer.isOnFirstLine) = true := by
    decide +kernel
  obtain ⟨created, hcreated, hfacts⟩ := (Option.any_eq_true _ _).mp hrun
  simp only [Bool.and_eq_true, beq_iff_eq] at hfacts
  have hlogged := (Logged.created (created_of_toOption hcreated)).run typed
  generalize run Setup.plain typed created = before at hfacts hlogged
  obtain ⟨⟨⟨⟨⟨⟨⟨⟨hcommands, hl⟩, hx⟩, hindex⟩, hdone⟩, hslot⟩, hy⟩, hnone⟩, hfirst⟩ := hfacts
  rw [hcommands] at hlogged
  have hinterrupted : handleKey Setup.plain (.ofCtrl 'c') before.2 =
      .ok none (step Setup.plain (.key (.ofCtrl 'c')) before.2).2 := perform_of_done hdone
  generalize (step Setup.plain (.key (.ofCtrl 'c')) before.2).2 = t at hslot hy hnone hfirst hinterrupted
  have hfresh := FreshPrompt.interrupted (.logged hlogged) hl rfl hinterrupted
  obtain ⟨hzero, -, -, -, htyping⟩ := fresh_prompt_keeps_slot (fun _ => rfl) hfresh
  have hzero := hzero.mpr (Or.inr hindex)
  have hu : TypedAt Setup.plain t _ := TypedAt.start.pressed (staysAt_of_insert (p := .ofChar 'y') rfl)
  obtain ⟨hindexu, -, hsynced, hup⟩ := htyping _ hu
  have hlinked := (hsynced.resolve_left fun h => absurd (hy.symm.trans h.2) (by decide)).2 hzero
  obtain ⟨q, hleaves, hmoved⟩ := hup (.ofName .up) rfl
  have hq := hleaves.unique ⟨Or.inl rfl, .up, rfl, settle_none Setup.plain hnone⟩
  rw [hzero] at hmoved hindexu
  have hshown := (hmoved (by rw [hq]; exact hfirst)).1 _ hslot
  exact ⟨_, _, _, hfresh, hl, hx, hzero, hu, hy, hindexu, hlinked, hshown.2⟩

/-- A recalled command is interrupted. The fresh prompt stays at its slot, and a text typed there takes
the place of the command. -/
theorem typed_into_old_entry : ∃ s t u, FreshPrompt Setup.plain ["a".toList] s t ∧
    t.editor.buffer.text = [] ∧ t.editor.history.index = 1 ∧ TypedAt Setup.plain t u ∧
    u.editor.buffer.text = "x".toList ∧
    u.editor.history.slot? 0 = some History.Entry.blank ∧
    u.editor.history.slot? 1 = some ⟨"a".toList, "x".toList, none⟩ ∧
    (step Setup.plain (.key (.ofName .up)) u).2.editor.buffer.text = "x".toList := by
  let typed := (KeyPress.typing "a\n".toList).map Request.key ++ [.prompt, .key (.ofName .up)]
  have hrun : (create Setup.plain .standard [] []).toOption.any (fun created =>
      let s := (run Setup.plain typed created).2
      let t := (step Setup.plain (.key (.ofCtrl 'c')) s).2
      let u := (step Setup.plain (.key (.ofChar 'x')) t).2
      (run Setup.plain typed created).1.filterMap Reply.command? == ["a".toList] &&
        s.editor.isListening && (step Setup.plain (.key (.ofCtrl 'c')) s).1 == .done &&
        t.editor.buffer.text == [] && t.editor.history.index == 1 &&
        u.editor.buffer.text == "x".toList &&
        u.editor.history.slot? 0 == some History.Entry.blank &&
        u.editor.history.slot? 1 == some ⟨"a".toList, "x".toList, none⟩ &&
        (step Setup.plain (.key (.ofName .up)) u).2.editor.buffer.text == "x".toList) = true := by
    decide +kernel
  obtain ⟨created, hcreated, hfacts⟩ := (Option.any_eq_true _ _).mp hrun
  simp only [Bool.and_eq_true, beq_iff_eq] at hfacts
  have hlogged := (Logged.created (created_of_toOption hcreated)).run typed
  generalize run Setup.plain typed created = before at hfacts hlogged
  obtain ⟨⟨⟨⟨⟨⟨⟨⟨hcommands, hl⟩, hdone⟩, hempty⟩, hindex⟩, hx⟩, hblank⟩, hold⟩, hup⟩ := hfacts
  rw [hcommands] at hlogged
  have hinterrupted : handleKey Setup.plain (.ofCtrl 'c') before.2 =
      .ok none (step Setup.plain (.key (.ofCtrl 'c')) before.2).2 := perform_of_done hdone
  generalize (step Setup.plain (.key (.ofCtrl 'c')) before.2).2 = t at hempty hindex hx hblank hold hup hinterrupted
  have hfresh := FreshPrompt.interrupted (.logged hlogged) hl rfl hinterrupted
  have hu : TypedAt Setup.plain t _ := TypedAt.start.pressed (staysAt_of_insert (p := .ofChar 'x') rfl)
  exact ⟨_, _, _, hfresh, hempty, hindex, hu, hx, hblank, hold, hup⟩

end Session
end Promptline
