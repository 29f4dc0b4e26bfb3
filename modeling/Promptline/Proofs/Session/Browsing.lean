import Promptline.Proofs.History.Submissions
import Promptline.Proofs.Session.Invariant

set_option autoImplicit false

namespace Promptline

namespace History

variable {h h' : History} {t u : Text}

theorem slot?_sync (h : History) (t : Text) (i : Nat) :
    (h.sync t).slot? i =
      if h.index = i then (h.slot? i).map fun e => { e with current := t } else h.slot? i := by
  simp only [sync, slot?, List.getElem?_modify]
  by_cases hi : h.index = i
  · simp [hi]
  · simp [hi]

theorem shown?_sync (hu : h.shown? = some u) (t : Text) : (h.sync t).shown? = some t := by
  obtain ⟨e, he, -⟩ := Option.map_eq_some_iff.mp hu
  have hindex : (h.sync t).index = h.index := rfl
  rw [shown?, hindex, slot?_sync, if_pos rfl, he]
  rfl

/-- Syncing with the text that is shown changes no slot. -/
theorem sync_entries_of_shown (ht : h.shown? = some t) : (h.sync t).entries = h.entries := by
  apply List.ext_getElem?
  intro i
  have hslot := slot?_sync h t i
  by_cases hi : h.index = i
  · obtain ⟨e, he, rfl⟩ := Option.map_eq_some_iff.mp ht
    rw [hi] at he
    rw [if_pos hi, he] at hslot
    exact hslot.trans he.symm
  · rw [if_neg hi] at hslot
    exact hslot

theorem sync_sync_entries (h : History) (t u : Text) :
    ((h.sync t).sync u).entries = (h.sync u).entries := by
  simp only [sync, List.modify_modify_eq]
  rfl

theorem shown?_isSome (h : History) : h.shown?.isSome ↔ h.index < h.entries.length := by
  simp [shown?, slot?]

theorem prev?_moves (hp : h.prev? = some h') : h'.index ≠ h.index ∧ h'.shown?.isSome := by
  rw [shown?_isSome]
  unfold prev? at hp
  split at hp
  · rename_i hlt
    cases hp
    exact ⟨Nat.succ_ne_self _, hlt⟩
  · cases hp

theorem next?_moves (hlt : h.index < h.entries.length) (hn : h.next? = some h') :
    h'.index ≠ h.index ∧ h'.shown?.isSome := by
  rw [shown?_isSome]
  unfold next? at hn
  split at hn
  · cases hn
  · cases hn
    constructor <;> dsimp only <;> omega

end History

namespace Session

open Keys

def Linked (s : Session) : Prop := s.editor.history.shown? = some s.editor.buffer.text

structure Stays (start s : Session) : Prop where
  listening : s.editor.isListening = true
  index : s.editor.history.index = start.editor.history.index
  entries : s.editor.history.entries = (start.editor.history.sync s.editor.buffer.text).entries

structure Moves (q s : Session) : Prop where
  listening : s.editor.isListening = true
  index : s.editor.history.index ≠ q.editor.history.index
  entries : s.editor.history.entries = q.editor.history.entries
  linked : Linked s

/-- `q` is the session in which a press of Up or Down finds the slot shown: a key that was pending is
settled by then. -/
structure Leaves (setup : Setup) (p : KeyPress) (s q : Session) : Prop where
  browses : Action.ofPress? p = some .up ∨ Action.ofPress? p = some .down
  settled : ∃ action, Action.ofPress? p = some action ∧
    settle setup { s with notices := s.notices ++ [.keyPress action] } = .ok () q

/-- Key presses with which the prompt goes on: no interruption, no exit and no submission. -/
def Continues (setup : Setup) (s : Session) (p : KeyPress) : Prop :=
  ∀ action, Action.ofPress? p = some action → action ≠ .interrupt ∧ action ≠ .exit ∧
    (action = .enter → ∀ q,
      settle setup { s with notices := s.notices ++ [.keyPress .enter] } = .ok () q →
      q.editor.readiness ≠ .ready)

variable {setup : Setup} {start s s' q : Session}

theorem Continues.edits {p : KeyPress} {action : Action} (hp : Continues setup s p)
    (ha : Action.ofPress? p = some action)
    (hok : settle setup { s with notices := s.notices ++ [.keyPress action] } = .ok () q)
    (hstays : ¬ (action = .up ∨ action = .down)) : Edits q action := by
  obtain ⟨hinterrupt, hexit, henter⟩ := hp action ha
  cases action with
  | up => exact hstays (Or.inl rfl)
  | down => exact hstays (Or.inr rfl)
  | interrupt => exact hinterrupt rfl
  | exit => exact hexit rfl
  | enter => exact henter rfl q hok
  | _ => trivial

theorem Stays.refl (hl : s.editor.isListening = true) (hlink : Linked s) : Stays s s :=
  ⟨hl, rfl, (History.sync_entries_of_shown hlink).symm⟩

theorem Stays.keep (h : Stays start s) (htext : s'.editor.buffer.text = s.editor.buffer.text)
    (hhistory : s'.editor.history = s.editor.history)
    (hl : s'.editor.isListening = true) : Stays start s' := by
  refine ⟨hl, ?_, ?_⟩
  · rw [hhistory, h.index]
  · rw [hhistory, htext, h.entries]

theorem Stays.sync_entries (h : Stays start s) (t : Text) :
    (s.editor.history.sync t).entries = (start.editor.history.sync t).entries := by
  rw [← History.sync_sync_entries start.editor.history s.editor.buffer.text]
  simp only [History.sync, h.index, h.entries]

theorem Stays.sync (h : Stays start s)
    (hhistory : s'.editor.history = s.editor.history.sync s'.editor.buffer.text)
    (hl : s'.editor.isListening = true) : Stays start s' := by
  refine ⟨hl, ?_, ?_⟩
  · rw [hhistory]
    exact h.index
  · rw [hhistory, h.sync_entries]

theorem Stays.trans (h : Stays start s) (h' : Stays s s') : Stays start s' :=
  ⟨h'.listening, h'.index.trans h.index, h'.entries.trans (h.sync_entries _)⟩

theorem Stays.linked (h : Stays start s) (hlink : Linked start) : Linked s := by
  have hshown := History.shown?_sync hlink s.editor.buffer.text
  have hindex : (start.editor.history.sync s.editor.buffer.text).index =
      start.editor.history.index := rfl
  rw [History.shown?, History.slot?, hindex, ← h.entries, ← h.index] at hshown
  exact hshown

theorem stays_editing (setup : Setup) (start : Session) :
    EditInvariant setup (fun _ => True) (Stays start) where
  lineFeed := trivial
  pasted _ := trivial
  armed h _ := h.listening
  noted _ h := h.keep rfl rfl h.listening
  pressed _ h hl := h.keep rfl rfl hl
  copied h _ := h.keep rfl rfl h.listening
  redrawn {s b} jump h hl htext := by
    have hkeep {s' : Session} (hr : Redrew (s.withBuffer b) s') : Stays start s' :=
      h.keep (hr.text.trans htext) hr.history (hr.isListening.trans hl)
    exact (ends_redraw setup jump).imp hkeep
  edited {s b} h hl _ := by
    have hsync {s' : Session} (hr : Redrew (s.withBuffer b).followed s') : Stays start s' := by
      refine h.sync ?_ (hr.isListening.trans hl)
      rw [hr.history, hr.text]
      rfl
    exact (ends_afterTextChange setup).imp hsync
  cleared h hl :=
    (ends_clearScreen setup).imp fun hr => h.keep hr.text hr.history (hr.isListening.trans hl)

theorem ends_browse (hl : s.editor.isListening = true) (hlink : Linked s)
    {go : History → Option History}
    (hgo : ∀ h, go s.editor.history = some h →
      s.editor.history.prev? = some h ∨ s.editor.history.next? = some h) :
    Ends (browse setup go) s (fun _ s' => Stays s s' ∨ Moves s s')
      fun s' => Stays s s' ∨ Moves s s' := by
  rw [browse, ends_bind, ends_get]
  cases hb : go s.editor.history with
  | none => exact Or.inl (Stays.refl hl hlink)
  | some h =>
    have hlt : s.editor.history.index < s.editor.history.entries.length := by
      rw [← History.shown?_isSome, hlink, Option.isSome_some]
    have hmoves : h.index ≠ s.editor.history.index ∧ h.shown?.isSome := by
      rcases hgo h hb with hp | hn
      · exact History.prev?_moves hp
      · exact History.next?_moves hlt hn
    have hentries : h.entries = s.editor.history.entries := by
      rcases hgo h hb with hp | hn
      · exact (History.prev?_entries hp).1
      · exact (History.next?_entries hn).1
    obtain ⟨t, ht⟩ := Option.isSome_iff_exists.mp hmoves.2
    have hshown {s' : Session} (hr : Redrew (s.browsed h) s') : Moves s s' := by
      have htext : s'.editor.buffer.text = t := by
        rw [hr.text]
        change (h.shown?.getD []) ++ [] = t
        rw [ht, List.append_nil, Option.getD_some]
      refine ⟨hr.isListening.trans hl, ?_, ?_, ?_⟩
      · rw [hr.history]
        exact hmoves.1
      · rw [hr.history]
        exact hentries
      · rw [Linked, hr.history, htext]
        exact ht
    exact (ends_redraw setup true).imp fun hr => Or.inr (hshown hr)

/-- Up and Down browse on the first and the last line and move the cursor on all others. -/
theorem ends_runAction_browsing (hl : s.editor.isListening = true) (hlink : Linked s)
    {action : Action} (ha : action = .up ∨ action = .down) :
    Ends (runAction setup action) s (fun _ s' => Stays s s' ∨ Moves s s')
      fun s' => Stays s s' ∨ Moves s s' := by
  have hmove {move : Buffer → Buffer} (hm : (move s.editor.buffer).text = s.editor.buffer.text) :
      Ends (moveWith setup move) s (fun _ s' => Stays s s' ∨ Moves s s')
        fun s' => Stays s s' ∨ Moves s s' :=
    ((stays_editing setup s).moveWith (Stays.refl hl hlink) hl hm).imp Or.inl
  rcases ha with rfl | rfl
  · refine (ends_seqRight _ _ _).mpr ?_
    rw [moveUp, ends_bind, ends_get]
    split
    · exact ends_browse hl hlink fun _ => Or.inl
    · exact hmove (Buffer.getD_text fun _ => Buffer.moveToPrevLine?_text)
  · refine (ends_seqRight _ _ _).mpr ?_
    rw [moveDown, ends_bind, ends_get]
    split
    · exact ends_browse hl hlink fun _ => Or.inr
    · exact hmove (Buffer.getD_text fun _ => Buffer.moveToNextLine?_text)

def Turned (setup : Setup) (p : KeyPress) (s s' : Session) : Prop :=
  Stays s s' ∨ ∃ q, Leaves setup p s q ∧ Stays s q ∧ Moves q s'

theorem ends_handleKey_turned {p : KeyPress} (hl : s.editor.isListening = true) (hlink : Linked s)
    (hp : Continues setup s p) :
    Ends (handleKey setup p) s (fun _ => Turned setup p s) (Turned setup p s) := by
  have hedits := stays_editing setup s
  have hstart := Stays.refl hl hlink
  rw [handleKey, ends_bind, ends_get, if_pos hl]
  cases ha : Action.ofPress? p with
  | none => exact Or.inl hstart
  | some action =>
    have hnoted := hedits.noted (.keyPress action) hstart
    rw [ends_bind, ends_note]
    refine ends_applyAction_of_settled (fun key =>
      (hedits.pressTwiceKey hnoted hl key).imp Or.inl) ?_
    refine ((ends_ok _ _).and (hedits.settle hnoted)).mono (fun _ q hq => ?_)
      fun _ hq => Or.inl hq.2
    obtain ⟨hok, hstays, -, -⟩ := hq
    by_cases hturn : action = .up ∨ action = .down
    · have hleaves : Leaves setup p s q :=
        ⟨hturn.imp (fun h => by rw [ha, h]) fun h => by rw [ha, h], action, ha, hok⟩
      have hcases {s' : Session} (hs : Stays q s' ∨ Moves q s') : Turned setup p s s' :=
        hs.imp hstays.trans fun hmoves => ⟨q, hleaves, hstays, hmoves⟩
      exact (ends_runAction_browsing hstays.listening (hstays.linked hlink) hturn).imp hcases
    · exact (hedits.runAction hstays hstays.listening (hp.edits ha hok hturn)
        fun _ _ => trivial).mono (fun _ _ hs => Or.inl hs.2) fun _ hs => Or.inl hs

theorem step_turned {p : KeyPress} (hl : s.editor.isListening = true) (hlink : Linked s)
    (hp : Continues setup s p) : Turned setup p s (step setup (.key p) s).2 := by
  have hreplied : Replied (fun _ => Turned setup p s) (Turned setup p s) (step setup (.key p) s) :=
    Ends.step (ends_handleKey_turned hl hlink hp)
  rcases hstep : step setup (.key p) s with ⟨_ | _ | _, s'⟩ <;> rw [hstep] at hreplied <;>
    exact hreplied

/-- Sessions in which the prompt of `start` goes on, whatever happens around the editor. `left` is the
text that each slot had when it was last left, or at the start. -/
inductive Browses (setup : Setup) (start : Session) : (Nat → Option Text) → Session → Prop
  | start :
      Browses setup start (fun i => (start.editor.history.slot? i).map History.Entry.current) start
  | around {left : Nat → Option Text} {s s' : Session} :
      Browses setup start left s → s'.editor = s.editor → Browses setup start left s'
  | expired {left : Nat → Option Text} {s : Session} :
      Browses setup start left s → Browses setup start left (ending (settle setup) s)
  | stayed {left : Nat → Option Text} {s : Session} {p : KeyPress} :
      Browses setup start left s → Continues setup s p →
      (step setup (.key p) s).2.editor.history.index = s.editor.history.index →
      Browses setup start left (step setup (.key p) s).2
  | moved {left : Nat → Option Text} {s q : Session} {p : KeyPress} :
      Browses setup start left s → Continues setup s p → Leaves setup p s q →
      (step setup (.key p) s).2.editor.history.index ≠ s.editor.history.index →
      Browses setup start
        (Function.update left s.editor.history.index (some q.editor.buffer.text))
        (step setup (.key p) s).2

def History.Entry.fixed (e : History.Entry) : Text × Option Text := (e.committed, e.block)

structure Remembers (start : Session) (left : Nat → Option Text) (s : Session) : Prop where
  listening : s.editor.isListening = true
  linked : Linked s
  fixed : ∀ i, (s.editor.history.slot? i).map History.Entry.fixed =
    (start.editor.history.slot? i).map History.Entry.fixed
  others : ∀ i, i ≠ s.editor.history.index →
    (s.editor.history.slot? i).map History.Entry.current = left i

variable {left : Nat → Option Text} {p : KeyPress}

theorem Leaves.unique {q' : Session} (h : Leaves setup p s q) (h' : Leaves setup p s q') :
    q = q' := by
  obtain ⟨action, ha, hq⟩ := h.settled
  obtain ⟨action', ha', hq'⟩ := h'.settled
  cases ha.symm.trans ha'
  have hsame := hq.symm.trans hq'
  cases hsame
  rfl

theorem Stays.slot_ne (h : Stays start s) {i : Nat} (hi : i ≠ start.editor.history.index) :
    s.editor.history.slot? i = start.editor.history.slot? i := by
  have hslot := History.slot?_sync start.editor.history s.editor.buffer.text i
  rw [if_neg (Ne.symm hi), History.slot?, ← h.entries] at hslot
  exact hslot

theorem Stays.fixed (h : Stays start s) (i : Nat) :
    (s.editor.history.slot? i).map History.Entry.fixed =
      (start.editor.history.slot? i).map History.Entry.fixed := by
  have hslot := History.slot?_sync start.editor.history s.editor.buffer.text i
  rw [History.slot?, ← h.entries] at hslot
  rw [History.slot?, hslot]
  by_cases hi : start.editor.history.index = i
  · rw [if_pos hi, Option.map_map]
    rfl
  · rw [if_neg hi]

theorem Remembers.stays (h : Remembers start left s) (hs : Stays s s') :
    Remembers start left s' := by
  refine ⟨hs.listening, hs.linked h.linked, fun i => (hs.fixed i).trans (h.fixed i), fun i hi => ?_⟩
  rw [hs.index] at hi
  rw [hs.slot_ne hi]
  exact h.others i hi

theorem Remembers.moves (h : Remembers start left q) (hm : Moves q s) :
    Remembers start
      (Function.update left q.editor.history.index (some q.editor.buffer.text)) s := by
  have hslot (i : Nat) : s.editor.history.slot? i = q.editor.history.slot? i := by
    rw [History.slot?, History.slot?, hm.entries]
  refine ⟨hm.listening, hm.linked, fun i => by rw [hslot, h.fixed i], fun i _ => ?_⟩
  rw [hslot]
  by_cases hi : i = q.editor.history.index
  · rw [hi, Function.update_self]
    exact h.linked
  · rw [Function.update_of_ne hi]
    exact h.others i hi

theorem Remembers.moved (h : Remembers start left s) (hp : Continues setup s p)
    (hq : Leaves setup p s q)
    (hindex : (step setup (.key p) s).2.editor.history.index ≠ s.editor.history.index) :
    Stays s q ∧ Moves q (step setup (.key p) s).2 := by
  rcases step_turned h.listening h.linked hp with hstays | ⟨q', hq', hstays, hmoves⟩
  · exact absurd hstays.index hindex
  · rw [hq.unique hq']
    exact ⟨hstays, hmoves⟩

theorem Browses.remembers (hl : start.editor.isListening = true) (hlink : Linked start)
    (h : Browses setup start left s) : Remembers start left s := by
  induction h with
  | start => exact ⟨hl, hlink, fun _ => rfl, fun _ _ => rfl⟩
  | around _ he ih =>
    refine ⟨?_, ?_, ?_, ?_⟩
    · rw [he]
      exact ih.listening
    · rw [Linked, he]
      exact ih.linked
    · rw [he]
      exact ih.fixed
    · rw [he]
      exact ih.others
  | @expired left s _ ih =>
    have hstays : Stays s (ending (settle setup) s) := Ends.ending
      (((stays_editing setup s).settle (Stays.refl ih.listening ih.linked)).mono
        (fun _ _ hs => hs.1) fun _ hs => hs)
    exact ih.stays hstays
  | stayed _ hp hindex ih =>
    rcases step_turned ih.listening ih.linked hp with hstays | ⟨q, -, hstays, hmoves⟩
    · exact ih.stays hstays
    · exact absurd (hindex.trans hstays.index.symm) hmoves.index
  | moved _ hp hq hindex ih =>
    obtain ⟨hstays, hmoves⟩ := ih.moved hp hq hindex
    rw [← hstays.index]
    exact (ih.stays hstays).moves hmoves

/-- While a prompt goes on, the buffer holds the live value of the slot shown, and what was submitted
stays as it is. A key shows another slot only by leaving the one shown, and then with the text that
it was left with. -/
theorem browsing_keeps_edits (hl : start.editor.isListening = true) (hlink : Linked start)
    (h : Browses setup start left s) :
    Linked s ∧
      (∀ i, (s.editor.history.slot? i).map History.Entry.fixed =
        (start.editor.history.slot? i).map History.Entry.fixed) ∧
      (∀ i, i ≠ s.editor.history.index →
        (s.editor.history.slot? i).map History.Entry.current = left i) ∧
      ∀ p, Continues setup s p →
        (step setup (.key p) s).2.editor.history.index = s.editor.history.index ∨
          (∃ q, Leaves setup p s q) ∧
            left (step setup (.key p) s).2.editor.history.index =
              some (step setup (.key p) s).2.editor.buffer.text := by
  have hremembers := h.remembers hl hlink
  refine ⟨hremembers.linked, hremembers.fixed, hremembers.others, fun p hp => ?_⟩
  rcases step_turned hremembers.listening hremembers.linked hp with hstays | ⟨q, hq, hstays, hmoves⟩
  · exact Or.inl hstays.index
  · refine Or.inr ⟨⟨q, hq⟩, ?_⟩
    rw [← (hremembers.stays hstays).others _ hmoves.index, History.slot?, ← hmoves.entries]
    exact hmoves.linked

theorem continues_of_browses (hp : Action.ofPress? p = some .up ∨ Action.ofPress? p = some .down) :
    Continues setup s p := by
  intro action ha
  rcases hp with hp | hp <;> cases ha.symm.trans hp <;> exact ⟨by simp, by simp, by simp⟩

/-- With no key pending, a slot is left with the text shown before the press. -/
theorem Browses.turned (h : Browses setup start left s)
    (hp : Action.ofPress? p = some .up ∨ Action.ofPress? p = some .down)
    (hnone : s.editor.presses = none)
    (hindex : (step setup (.key p) s).2.editor.history.index ≠ s.editor.history.index) :
    Browses setup start (Function.update left s.editor.history.index (some s.editor.buffer.text))
      (step setup (.key p) s).2 := by
  obtain ⟨action, ha⟩ : ∃ action, Action.ofPress? p = some action := hp.elim (⟨_, ·⟩) (⟨_, ·⟩)
  let noted : Session := { s with notices := s.notices ++ [.keyPress action] }
  have hsettled : settle setup noted = .ok () noted := settle_none setup hnone
  exact h.moved (q := noted) (continues_of_browses hp) ⟨hp, action, ha, hsettled⟩ hindex

/-- A recalled text is edited, left for the text being typed, and found as it was left. -/
theorem recalled_edit_kept : ∃ start s left,
    start.editor.isListening = true ∧ Linked start ∧ Browses Setup.plain start left s ∧ Linked s ∧
    s.editor.buffer.text = "x".toList ∧
    (step Setup.plain (.key (.ofName .up)) s).2.editor.buffer.text = "ab".toList := by
  let press (p : KeyPress) (s : Session) : Session := (step Setup.plain (.key p) s).2
  have hrun : (create Setup.plain .standard [] []).toOption.any (fun s =>
      let start := (run Setup.plain ((KeyPress.typing "a\n".toList).map Request.key ++
        [.prompt, .key (.ofChar 'x')]) s).2
      let recalled := press (.ofName .up) start
      let edited := press (.ofChar 'b') recalled
      let back := press (.ofName .down) edited
      start.editor.isListening && start.editor.history.shown? == some start.editor.buffer.text &&
        start.editor.presses == none && edited.editor.presses == none &&
        start.editor.history.index == 0 && recalled.editor.history.index == 1 &&
        edited.editor.history.index == 1 && back.editor.history.index == 0 &&
        edited.editor.buffer.text == "ab".toList && back.editor.buffer.text == "x".toList &&
        (press (.ofName .up) back).editor.history.index == 1) = true := by
    decide +kernel
  obtain ⟨s, -, hfacts⟩ := (Option.any_eq_true _ _).mp hrun
  simp only [Bool.and_eq_true, beq_iff_eq] at hfacts
  generalize (run Setup.plain ((KeyPress.typing "a\n".toList).map Request.key ++
    [.prompt, .key (.ofChar 'x')]) s).2 = start at hfacts
  obtain ⟨⟨⟨⟨⟨⟨⟨⟨⟨⟨hl, hlink⟩, hnone⟩, hnone'⟩, hstart⟩, hrecalled⟩, hedited⟩, hback⟩, htext⟩, hx⟩,
    hagain⟩ := hfacts
  have hup : (press (.ofName .up) start).editor.history.index ≠ start.editor.history.index := by
    rw [hrecalled, hstart]
    exact Nat.one_ne_zero
  have htyped : Continues Setup.plain (press (.ofName .up) start) (.ofChar 'b') := by
    intro action ha
    cases ha
    exact ⟨by simp, by simp, by simp⟩
  have hrecalls := (@Browses.start Setup.plain start).turned (Or.inl rfl) hnone hup
  have hedits := hrecalls.stayed htyped (hedited.trans hrecalled.symm)
  have hdown : (press (.ofName .down)
      (press (.ofChar 'b') (press (.ofName .up) start))).editor.history.index ≠
      (press (.ofChar 'b') (press (.ofName .up) start)).editor.history.index := by
    rw [hback, hedited]
    exact Nat.zero_ne_one
  have hbrowses := hedits.turned (Or.inr rfl) hnone' hdown
  obtain ⟨hlinked, -, -, hnext⟩ := browsing_keeps_edits hl hlink hbrowses
  refine ⟨start, _, _, hl, hlink, hbrowses, hlinked, hx, ?_⟩
  rcases hnext (.ofName .up) (continues_of_browses (Or.inl rfl)) with hsame | ⟨-, hleft⟩
  · exact absurd (hagain.symm.trans (hsame.trans hback)) Nat.one_ne_zero
  · rw [hagain, hedited, Function.update_self, htext] at hleft
    exact (Option.some.inj hleft).symm

end Session
end Promptline
