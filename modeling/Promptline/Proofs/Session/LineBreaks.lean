import Promptline.Proofs.Session.Characters
import Promptline.Proofs.Session.Retry

set_option autoImplicit false

namespace Promptline

namespace History

variable {A : Char → Prop} {h : History} {t : Text}

def BlocksWithin (A : Char → Prop) (h : History) : Prop :=
  ∀ e ∈ h.entries, ∀ t, e.block = some t → ∀ c ∈ t, A c

theorem BlocksWithin.sync (hh : BlocksWithin A h) (t : Text) : BlocksWithin A (h.sync t) := by
  intro e he
  obtain ⟨i, hi⟩ := List.mem_iff_getElem?.mp he
  simp only [History.sync, List.getElem?_modify] at hi
  obtain ⟨e₀, he₀, rfl⟩ := Option.map_eq_some_iff.mp hi
  have hold := hh e₀ (List.mem_of_getElem? he₀)
  split <;> exact hold

theorem BlocksWithin.commit (hh : BlocksWithin A h) (ht : ∀ c ∈ t, A c) :
    BlocksWithin A (h.commit t) := by
  have hreverted {e : Entry} (he : e ∈ h.entries.map Entry.reverted) :
      ∀ u, e.block = some u → ∀ c ∈ u, A c := by
    obtain ⟨e₀, he₀, rfl⟩ := List.mem_map.mp he
    exact hh e₀ he₀
  have hgrown {e : Entry}
      (he : e ∈ Entry.blank :: Entry.ofSubmission t :: (h.entries.map Entry.reverted).tail) :
      ∀ u, e.block = some u → ∀ c ∈ u, A c := by
    rcases List.mem_cons.mp he with rfl | he
    · intro u hu
      cases hu
    · rcases List.mem_cons.mp he with rfl | he
      · intro u hu
        simp only [Entry.ofSubmission, Option.ite_none_right_eq_some] at hu
        rw [← Option.some.inj hu.2]
        exact ht
      · exact hreverted (List.mem_of_mem_tail he)
  intro e he
  unfold History.commit at he
  dsimp only at he
  split at he
  · split at he
    · exact hgrown he
    · exact hgrown (List.mem_of_mem_take he)
  · exact hreverted he

end History

namespace Session

open Keys

abbrev NotReturn (c : Char) : Prop := c ≠ '\r'

variable {setup : Setup} {s s' : Session} {t : Text}

theorem only_notReturn_iff : Only NotReturn t ↔ '\r' ∉ t :=
  ⟨fun h hmem => h _ hmem rfl, fun h _ hc he => h (he ▸ hc)⟩

theorem only_notReturn_nil : Only NotReturn [] := List.forall_mem_nil NotReturn

theorem only_notReturn_lineFeed : Only NotReturn ['\n'] := by
  rw [only_notReturn_iff]
  decide

structure LineFed (s : Session) : Prop where
  armed : s.editor.presses ≠ none → s.editor.isListening = true
  text : Only NotReturn s.editor.buffer.text
  history : History.Within NotReturn s.editor.history
  blocks : History.BlocksWithin NotReturn s.editor.history
  copied : ∀ t ∈ s.clipboard.copied, Only NotReturn t

theorem LineFed.redrew (h : LineFed s) (hr : Redrew s s') : LineFed s' where
  armed := by
    rw [hr.presses, hr.isListening]
    exact h.armed
  text := by
    rw [hr.text]
    exact h.text
  history := by
    rw [hr.history]
    exact h.history
  blocks := by
    rw [hr.history]
    exact h.blocks
  copied := by
    rw [hr.clipboard]
    exact h.copied

/-- The editor has another text, of which the history knows. -/
theorem LineFed.synced (h : LineFed s) (hl : s.editor.isListening = true) {e : Editor}
    (ht : Only NotReturn e.buffer.text) (he : e.isListening = s.editor.isListening)
    (hhistory : e.history = s.editor.history.sync e.buffer.text) :
    LineFed { s with editor := e } where
  armed _ := he.trans hl
  text := ht
  history := by
    change History.Within NotReturn e.history
    rw [hhistory]
    exact h.history.sync ht
  blocks := by
    change History.BlocksWithin NotReturn e.history
    rw [hhistory]
    exact h.blocks.sync e.buffer.text
  copied := h.copied

theorem LineFed.browsed (h : LineFed s) (hl : s.editor.isListening = true) {slot : History}
    (hentries : slot.entries = s.editor.history.entries) : LineFed (s.browsed slot) := by
  have hwithin : History.Within NotReturn slot := by
    unfold History.Within
    rw [hentries]
    exact h.history
  have hblocks : History.BlocksWithin NotReturn slot := by
    unfold History.BlocksWithin
    rw [hentries]
    exact h.blocks
  have hshown : (s.browsed slot).editor.buffer.text = slot.shown?.getD [] := List.append_nil _
  refine ⟨fun _ => hl, ?_, hwithin, hblocks, h.copied⟩
  rw [hshown]
  exact hwithin.shown

theorem LineFed.prompted (h : LineFed s) (onNewLine : Bool) :
    Ends (showPrompt setup onNewLine) s (fun _ => LineFed) LineFed := by
  have hcleared : LineFed s.atPrompt :=
    ⟨h.armed, only_notReturn_nil, h.history, h.blocks, h.copied⟩
  refine (ends_showPrompt_redrew setup onNewLine).mono (fun _ s' hs => ?_) fun _ => hcleared.redrew
  obtain ⟨a, ha, rfl⟩ := hs
  have hshown := hcleared.redrew ha
  exact ⟨fun _ => rfl, hshown.text, hshown.history, hshown.blocks, hshown.copied⟩

structure Handed (e : Event) (s : Session) : Prop where
  lineFed : LineFed s
  command {t : Text} : e = .command t → Only NotReturn t

theorem LineFed.submitted (h : LineFed s) (hp : s.editor.presses = none) :
    Ends (submit setup) s Handed LineFed := by
  have hrecorded (notices : List Log.Notice) : LineFed { s with
      editor := { s.editor with history := s.editor.history.commit s.editor.buffer.text }
      notices } :=
    ⟨h.armed, h.text, h.history.commit h.text, h.blocks.commit h.text, h.copied⟩
  simp only [submit, recordSubmission, ends_bind, ends_get, ends_modifyEditor, ends_note]
  refine (ends_redraw setup true).mono (fun _ a ha => ?_) fun _ => (hrecorded _).redrew
  have hdrawn := (hrecorded _).redrew ha
  refine (ends_drawAll setup _).mono (fun _ b hb => ?_) fun _ hb => hdrawn.redrew hb.redrew
  have hleft := hdrawn.redrew hb.redrew
  have hnone : b.editor.presses = none := hb.redrew.presses.trans (ha.presses.trans hp)
  simp only [handOver, ends_bind, ends_modifyEditor, ends_publish, ends_pure]
  refine ⟨⟨fun harmed => absurd hnone harmed, only_notReturn_nil, hleft.history, hleft.blocks,
    hleft.copied⟩, fun ht => ?_⟩
  cases ht
  exact h.text

theorem lineFed_invariant (hunit : Only NotReturn setup.config.indentUnit) :
    Invariant setup (Only NotReturn) LineFed Handed where
  lineFeed := only_notReturn_lineFeed
  pasted _ _ := Text.normalizeNewlines_ne
  armed h := h.armed
  noted _ h := ⟨h.armed, h.text, h.history, h.blocks, h.copied⟩
  passed _ _ h := ⟨h.armed, h.text, h.history, h.blocks, h.copied⟩
  pressed _ h hl := ⟨fun _ => hl, h.text, h.history, h.blocks, h.copied⟩
  copied h ht := by
    refine ⟨h.armed, h.text, h.history, h.blocks, fun u hu => ?_⟩
    rcases List.mem_append.mp hu with hu | hu
    · exact h.copied u hu
    · rw [List.mem_singleton.mp hu]
      exact h.text.subset ht
  synced h hl := h.synced hl h.text rfl rfl
  redrawn {s b} jump h hl ht := by
    have hplaced : LineFed (s.withBuffer b) := by
      refine ⟨fun _ => hl, ?_, h.history, h.blocks, h.copied⟩
      change Only NotReturn b.text
      rw [ht]
      exact h.text
    exact (ends_redraw setup jump).imp hplaced.redrew
  edited {s b} h hl he := by
    have htext : Only NotReturn b.text := he.only h.text (by decide) hunit
    have hfollowed : LineFed (s.withBuffer b).followed := h.synced hl htext rfl rfl
    exact (ends_afterTextChange setup).imp hfollowed.redrew
  browsed {s slot} h hl hgo := by
    have hentries : slot.entries = s.editor.history.entries := by
      rcases hgo with hprev | hnext
      · exact (History.prev?_entries hprev).1
      · exact (History.next?_entries hnext).1
    exact (ends_redraw setup true).imp (h.browsed hl hentries).redrew
  cleared h _ := (ends_clearScreen setup).imp h.redrew
  submitted h _ hp _ := h.submitted hp
  prompted h := h.prompted true
  closed {s} h := by
    simp only [close, ends_bind, ends_get, ends_modifyEditor, ends_note, ends_publish, ends_pure]
    refine ⟨⟨h.armed, h.text, h.history, h.blocks, h.copied⟩, fun ht => ?_⟩
    cases ht

theorem typed_normalized {p : KeyPress} (h : Action.ofPress? p = some (.insert t)) :
    ∃ typed, p.text = some typed ∧ t = Text.normalizeNewlines typed := by
  have htyped {text : Option Text} (htext : Action.ofText? text = some (.insert t)) :
      ∃ typed, text = some typed ∧ t = Text.normalizeNewlines typed := by
    unfold Action.ofText? at htext
    split at htext
    · cases htext
    · cases htext
    · rename_i typed _
      cases htext
      exact ⟨typed, rfl, rfl⟩
  unfold Action.ofPress? at h
  split at h
  · exact htyped h
  · split at h
    · unfold Action.ofCtrl? at h
      split at h <;> cases h
    · unfold Action.ofPlain? at h
      split at h
      all_goals first | cases h | exact htyped h

theorem typesOnly_notReturn (p : KeyPress) : TypesOnly (Only NotReturn) p := by
  intro t ht
  obtain ⟨typed, -, rfl⟩ := typed_normalized ht
  exact fun _ => Text.normalizeNewlines_ne

theorem LineFed.perform (h : LineFed s) (hunit : Only NotReturn setup.config.indentUnit)
    (r : Request) : Ends (perform setup r) s (Answered LineFed Handed) LineFed := by
  have hinv := lineFed_invariant hunit
  cases r with
  | key p => exact hinv.handleKey h (typesOnly_notReturn p)
  | readline => exact (ends_map _ _ _).mpr (hinv.readline (fun k _ => typesOnly_notReturn k.2) h)
  | prompt => exact (ends_seqRight _ _ _).mpr (hinv.prompted h)
  | print t =>
    exact (ends_seqRight _ _ _).mpr ((ends_drawAll setup _).imp fun hd => h.redrew hd.redrew)
  | _ => exact (ends_seqRight _ _ _).mpr ⟨h.armed, h.text, h.history, h.blocks, h.copied⟩

theorem LineFed.step (h : LineFed s) (hunit : Only NotReturn setup.config.indentUnit)
    (r : Request) : LineFed (step setup r s).2 ∧
      ∀ t, (step setup r s).1 = .event (.command t) → Only NotReturn t := by
  have hreplied := (h.perform hunit r).step
  rcases hstep : Session.step setup r s with ⟨reply, s'⟩
  rw [hstep] at hreplied
  cases reply with
  | done => exact ⟨hreplied, fun t ht => Reply.noConfusion ht⟩
  | event e => exact ⟨hreplied.lineFed, fun t ht => hreplied.command (Reply.event.inj ht)⟩
  | failed e => exact ⟨hreplied, fun t ht => Reply.noConfusion ht⟩

theorem Reachable.lineFed (h : Reachable setup s) (hunit : Only NotReturn setup.config.indentUnit) :
    LineFed s := by
  induction h with
  | @created size clipboard keys s hs =>
    have hblank : ∀ e ∈ [History.Entry.blank], e = ⟨[], [], none⟩ := by simp [History.Entry.blank]
    have hinitial : LineFed (initial setup size clipboard keys) := by
      refine ⟨fun harmed => absurd rfl harmed, only_notReturn_nil, fun e he => ?_, fun e he => ?_,
        List.forall_mem_nil _⟩
      · rw [hblank e he]
        exact ⟨only_notReturn_nil, only_notReturn_nil⟩
      · rw [hblank e he]
        intro t ht
        cases ht
    exact (hinitial.prompted false).created hs
  | requested r _ ih => exact (ih.step hunit r).1
  | expired _ ih =>
    have hsettled := (lineFed_invariant hunit).settle ih
    exact Ends.ending (hsettled.mono (fun _ _ hs => hs.1) fun _ hs => hs)

theorem Reachable.delivered_notReturn (h : Reachable setup s)
    (hunit : Only NotReturn setup.config.indentUnit) (hd : Delivered s t) : Only NotReturn t := by
  induction h with
  | created hs => exact absurd hd ((sound_of_create hs).2 t)
  | requested r hs ih =>
    obtain ⟨-, hnew, -⟩ := hs.sound.step setup r
    rcases hnew t hd with hold | hreply
    · exact ih hold
    · exact ((hs.lineFed hunit).step hunit r).2 t hreply
  | expired hs ih => exact ih ((hs.sound.settle setup).delivered hd)

/-- No text that a session holds or has given away has a carriage return. -/
structure ReturnFree (s : Session) : Prop where
  text : '\r' ∉ s.editor.buffer.text
  history : ∀ e ∈ s.editor.history.entries, '\r' ∉ e.committed ∧ '\r' ∉ e.current ∧
    ∀ t, e.block = some t → '\r' ∉ t
  copied : ∀ t ∈ s.clipboard.copied, '\r' ∉ t
  delivered : ∀ t, Delivered s t → '\r' ∉ t

/-- With no carriage return in the indentation, none enters a session, whatever is typed and pasted and
whichever calls fail. What is typed or pasted is inserted with each carriage return, or pair of one and
a line feed, turned into a line feed; two replacements one after the other do the same. -/
theorem reachable_returnFree (hunit : '\r' ∉ setup.config.indentUnit) :
    (∀ s, Reachable setup s → ReturnFree s ∧
        ∀ r t, (step setup r s).1 = .event (.command t) → '\r' ∉ t) ∧
      (∀ p t, Action.ofPress? p = some (.insert t) →
        ∃ typed, p.text = some typed ∧ t = Text.normalizeNewlines typed) ∧
      (∀ s, s.clipboard.isAvailable = true → runAction setup .paste s =
        runAction setup (.insert (Text.normalizeNewlines s.clipboard.content)) s) ∧
      ∀ t, Text.normalizeNewlines t =
        Text.replaceAll ['\r'] ['\n'] (Text.replaceAll ['\r', '\n'] ['\n'] t) := by
  rw [← only_notReturn_iff] at hunit
  refine ⟨fun s hs => ?_, fun _ _ => typed_normalized, fun s havailable => ?_, fun t => ?_⟩
  · have hfed := hs.lineFed hunit
    refine ⟨⟨?_, fun e he => ?_, fun t ht => ?_, fun t hd => ?_⟩, fun r t ht => ?_⟩
    · exact only_notReturn_iff.mp hfed.text
    · have hentry := hfed.history e he
      refine ⟨only_notReturn_iff.mp hentry.1, only_notReturn_iff.mp hentry.2, fun t ht => ?_⟩
      exact only_notReturn_iff.mp (hfed.blocks e he t ht)
    · exact only_notReturn_iff.mp (hfed.copied t ht)
    · exact only_notReturn_iff.mp (hs.delivered_notReturn hunit hd)
    · exact only_notReturn_iff.mp ((hfed.step hunit r).2 t ht)
  · have hpaste : paste setup s = insertText setup (Text.normalizeNewlines s.clipboard.content) s := by
      rw [paste, get_bind, if_pos havailable]
    simp only [runAction, SeqRight.seqRight, EStateM.seqRight, hpaste]
  · exact (Text.replaceAll_eq_normalizeNewlines t).symm

/-- Pasted with all kinds of line breaks in it, a text is submitted with line feeds alone. -/
theorem pasted_returns_submitted : '\r' ∉ Setup.plain.config.indentUnit ∧
    ∃ s, Reachable Setup.plain s ∧
      (step Setup.plain (.key (.ofName .enter)) s).1 = .event (.command "a\n\nb\nc".toList) ∧
      ReturnFree s ∧ '\r' ∉ "a\n\nb\nc".toList := by
  let pasted : List Request :=
    [.key (.ofText "a\r\r\nb".toList), .setClipboard "\rc".toList, .key (.ofCtrl 'v')]
  have hrun : (create Setup.plain .standard [] []).toOption.map (fun s =>
      (step Setup.plain (.key (.ofName .enter)) (run Setup.plain pasted s).2).1) =
        some (.event (.command "a\n\nb\nc".toList)) := by
    decide +kernel
  obtain ⟨s, hs, hreply⟩ := Option.map_eq_some_iff.mp hrun
  have hreach := (Reachable.created (created_of_toOption hs)).run pasted
  have hunit : '\r' ∉ Setup.plain.config.indentUnit := by decide
  have hfree := (reachable_returnFree hunit).1 _ hreach
  exact ⟨hunit, _, hreach, hreply, hfree.1, hfree.2 _ _ hreply⟩

end Session
end Promptline
