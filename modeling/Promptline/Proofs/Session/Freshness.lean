import Promptline.Proofs.Session.Invariant

set_option autoImplicit false

namespace Promptline.Session

open Indent Keys

/-- A text that may be submitted: the empty one, or one that leaves no block open. -/
def Submittable (t : Text) : Prop :=
  t = [] ∨ isSubmitReady (scan Table.standard (Text.lines t)) = true

structure Editor.Fresh (e : Editor) : Prop where
  frames : e.frames = if e.buffer.text = [] then [] else scan Table.standard (Text.lines e.buffer.text)
  readiness : e.readiness = .ready ↔ isSubmitReady e.frames = true

def Delivered (s : Session) (t : Text) : Prop :=
  ∃ r ∈ s.subscribers, Event.command t ∈ r.received

variable {s s' : Session} {setup : Setup}

theorem Editor.rescan_fresh (e : Editor) : e.rescan.Fresh := by
  refine ⟨?_, ?_⟩
  · simp only [rescan, Buffer.isEmpty, List.isEmpty_iff]
  · simp only [rescan]
    split <;> simp_all

theorem Editor.cleared_fresh (e : Editor) : e.cleared.Fresh := Editor.rescan_fresh _

theorem Editor.Fresh.keep {e e' : Editor} (h : e.Fresh)
    (ht : e'.buffer.text = e.buffer.text) (hf : e'.frames = e.frames)
    (hr : e'.readiness = e.readiness) : e'.Fresh := by
  refine ⟨?_, ?_⟩
  · rw [hf, ht]
    exact h.frames
  · rw [hr, hf]
    exact h.readiness

theorem Editor.Fresh.submittable {e : Editor} (h : e.Fresh) (hr : e.readiness = .ready) :
    Submittable e.buffer.text := by
  have hready := h.readiness.mp hr
  rw [h.frames] at hready
  by_cases ht : e.buffer.text = []
  · exact Or.inl ht
  · rw [if_neg ht] at hready
    exact Or.inr hready

structure Alike (s s' : Session) : Prop where
  text : s'.editor.buffer.text = s.editor.buffer.text
  frames : s'.editor.frames = s.editor.frames
  readiness : s'.editor.readiness = s.editor.readiness
  presses : s'.editor.presses = s.editor.presses
  isListening : s'.editor.isListening = s.editor.isListening
  subscribers : s'.subscribers = s.subscribers

theorem Redrew.alike (h : Redrew s s') : Alike s s' :=
  ⟨h.text, h.frames, h.readiness, h.presses, h.isListening, h.subscribers⟩

theorem Alike.trans {a b c : Session} (h : Alike a b) (h' : Alike b c) : Alike a c :=
  ⟨h'.text.trans h.text, h'.frames.trans h.frames, h'.readiness.trans h.readiness,
    h'.presses.trans h.presses, h'.isListening.trans h.isListening,
    h'.subscribers.trans h.subscribers⟩

structure Sound (s : Session) : Prop where
  fresh : s.editor.Fresh
  armed : s.editor.presses ≠ none → s.editor.isListening = true

structure Kept (start s : Session) : Prop where
  sound : Sound s
  delivered {t : Text} : Delivered s t → Delivered start t

structure Sent (start : Session) (e : Event) (s : Session) : Prop where
  sound : Sound s
  delivered {t : Text} : Delivered s t → Delivered start t ∨ e = .command t
  complete {t : Text} : e = .command t → Submittable t

theorem Sound.alike (h : Sound s) (ha : Alike s s') : Sound s' := by
  refine ⟨h.fresh.keep ha.text ha.frames ha.readiness, ?_⟩
  rw [ha.presses, ha.isListening]
  exact h.armed

theorem Kept.alike {start : Session} (h : Kept start s) (ha : Alike s s') : Kept start s' := by
  refine ⟨h.sound.alike ha, ?_⟩
  unfold Delivered
  rw [ha.subscribers]
  exact h.delivered

theorem Kept.rescan {start : Session} (h : Kept start s) {e : Editor} (hf : e.Fresh)
    (hl : e.isListening = true) : Kept start { s with editor := e } :=
  ⟨⟨hf, fun _ => hl⟩, h.delivered⟩

theorem delivered_publish {e : Event} {t : Text}
    (h : Delivered { s with subscribers := s.subscribers.map (Subscriber.receive e) } t) :
    Delivered s t ∨ e = .command t := by
  obtain ⟨r, hr, ht⟩ := h
  obtain ⟨r₀, hr₀, rfl⟩ := List.mem_map.mp hr
  unfold Subscriber.receive at ht
  split at ht
  · rcases List.mem_append.mp ht with h | h
    · exact Or.inl ⟨r₀, hr₀, h⟩
    · exact Or.inr (List.mem_singleton.mp h).symm
  · exact Or.inl ⟨r₀, hr₀, ht⟩

theorem ends_recordSubmission (setup : Setup) :
    Ends (recordSubmission setup) s (fun _ => Alike s) (Alike s) := by
  simp only [recordSubmission, ends_bind, ends_get, ends_modifyEditor, ends_note]
  have hstart (n : Log.Notice) (history : History) : Alike s { s with
      editor := { s.editor with history }, notices := s.notices ++ [n] } :=
    ⟨rfl, rfl, rfl, rfl, rfl, rfl⟩
  refine (ends_redraw setup true).mono (fun _ a ha => ?_) fun _ ha => (hstart _ _).trans ha.alike
  refine (ends_drawAll setup _).mono (fun _ b hb => ?_) fun _ hb => ?_
  · have hab := ((hstart _ _).trans ha.alike).trans hb.redrew.alike
    exact ⟨hab.text, hab.frames, hab.readiness, hab.presses, hab.isListening, hab.subscribers⟩
  · exact ((hstart _ _).trans ha.alike).trans hb.redrew.alike

theorem Kept.redraw {start : Session} (h : Kept start s) (setup : Setup) (jump : Bool) :
    Ends (redraw setup jump) s (fun _ => Kept start) (Kept start) :=
  (ends_redraw setup jump).mono (fun _ _ hr => h.alike hr.alike) fun _ hr => h.alike hr.alike

theorem Kept.submit {start : Session} (h : Kept start s) (hp : s.editor.presses = none)
    (hr : s.editor.readiness = .ready) :
    Ends (submit setup) s (Sent start) (Kept start) := by
  simp only [Session.submit, ends_bind, ends_get]
  refine (ends_recordSubmission setup).mono (fun _ q hq => ?_) fun _ hq => h.alike hq
  simp only [handOver, ends_bind, ends_modifyEditor, ends_publish, ends_pure]
  refine ⟨⟨q.editor.cleared_fresh.keep rfl rfl rfl, fun hpressed => ?_⟩, fun hd => ?_, fun ht => ?_⟩
  · have hnone := hq.presses.trans hp
    exact absurd hnone hpressed
  · exact (delivered_publish hd).imp_left (h.alike hq).delivered
  · cases ht
    exact h.sound.fresh.submittable hr

/-- A prompt makes the frames fresh, whatever they were before. -/
theorem ends_showPrompt {start : Session} (setup : Setup) (onNewLine : Bool)
    (harmed : s.editor.presses ≠ none → s.editor.isListening = true)
    (hd : ∀ t, Delivered s t → Delivered start t) :
    Ends (showPrompt setup onNewLine) s (fun _ => Kept start) (Kept start) := by
  have hcleared : Kept start s.atPrompt :=
    ⟨⟨s.editor.cleared_fresh.keep rfl rfl rfl, harmed⟩, hd _⟩
  refine (ends_showPrompt_redrew setup onNewLine).mono (fun _ s' hs => ?_)
    fun _ hr => hcleared.alike hr.alike
  obtain ⟨a, ha, rfl⟩ := hs
  have hshown := hcleared.alike ha.alike
  exact hshown.rescan (hshown.sound.fresh.keep rfl rfl rfl) rfl

theorem Kept.showPrompt {start : Session} (h : Kept start s) (setup : Setup) (onNewLine : Bool) :
    Ends (showPrompt setup onNewLine) s (fun _ => Kept start) (Kept start) :=
  ends_showPrompt setup onNewLine h.sound.armed fun _ => h.delivered

theorem Kept.clearScreen {start : Session} (h : Kept start s) (setup : Setup) :
    Ends (clearScreen setup) s (fun _ => Kept start) (Kept start) := by
  exact (ends_clearScreen setup).imp fun hr => h.alike hr.alike

theorem Kept.close {start : Session} (h : Kept start s) :
    Ends close s (Sent start) (Kept start) := by
  simp only [Session.close, ends_bind, ends_get, ends_modifyEditor, ends_note, ends_publish,
    ends_pure]
  refine ⟨⟨h.sound.fresh.keep rfl rfl rfl, h.sound.armed⟩, fun hd => ?_, by simp⟩
  exact (delivered_publish hd).imp_left h.delivered

theorem kept_invariant (setup : Setup) (start : Session) :
    Invariant setup (fun _ => True) (Kept start) (Sent start) where
  lineFeed := trivial
  pasted _ := trivial
  armed h := h.sound.armed
  noted _ h := h.alike ⟨rfl, rfl, rfl, rfl, rfl, rfl⟩
  passed _ _ h := h.alike ⟨rfl, rfl, rfl, rfl, rfl, rfl⟩
  pressed _ h hl := h.rescan (h.sound.fresh.keep rfl rfl rfl) hl
  copied h _ := h.alike ⟨rfl, rfl, rfl, rfl, rfl, rfl⟩
  synced h _ := h.alike ⟨rfl, rfl, rfl, rfl, rfl, rfl⟩
  redrawn {s b} jump h _ ht := by
    have hplaced : Alike s (s.withBuffer b) := ⟨ht, rfl, rfl, rfl, rfl, rfl⟩
    exact (h.alike hplaced).redraw setup jump
  edited {s b} h hl _ := by
    have hfollowed : Kept start (s.withBuffer b).followed :=
      h.rescan ((Editor.rescan_fresh _).keep rfl rfl rfl) hl
    rw [afterTextChange, ends_bind, ends_modifyEditor]
    exact hfollowed.redraw setup false
  browsed {s slot} h hl _ := by
    have hbrowsed : Kept start (s.browsed slot) := h.rescan (Editor.rescan_fresh _) hl
    exact hbrowsed.redraw setup true
  cleared h _ := h.clearScreen setup
  submitted h _ hp hr := h.submit hp hr
  prompted h := h.showPrompt setup true
  closed h := h.close

theorem Sound.kept (h : Sound s) : Kept s s := ⟨h, id⟩

theorem Sound.perform (h : Sound s) (setup : Setup) (r : Request) :
    Ends (perform setup r) s (Answered (Kept s) (Sent s)) (Kept s) := by
  have hkept := h.kept
  have hinv := kept_invariant setup s
  cases r with
  | key p => exact hinv.handleKey hkept fun _ _ => trivial
  | readline => exact (ends_map _ _ _).mpr (hinv.readline (fun _ _ _ _ => trivial) hkept)
  | prompt => exact (ends_seqRight _ _ _).mpr (hkept.showPrompt setup true)
  | print t =>
    refine (ends_seqRight _ _ _).mpr ((ends_drawAll setup _).mono (fun _ a ha => ?_) fun a ha => ?_)
    · exact hkept.alike ha.redrew.alike
    · exact hkept.alike ha.redrew.alike
  | subscribe =>
    refine (ends_seqRight _ _ _).mpr ⟨⟨h.fresh, h.armed⟩, fun hd => ?_⟩
    obtain ⟨r, hr, ht⟩ := hd
    rcases List.mem_append.mp hr with hr | hr
    · exact ⟨r, hr, ht⟩
    · rw [List.mem_singleton.mp hr] at ht
      cases ht
  | unsubscribe index =>
    refine (ends_seqRight _ _ _).mpr ⟨⟨h.fresh, h.armed⟩, fun hd => ?_⟩
    obtain ⟨r, hr, ht⟩ := hd
    obtain ⟨i, hi⟩ := List.mem_iff_getElem?.mp hr
    rw [List.getElem?_modify] at hi
    obtain ⟨r₀, hr₀, rfl⟩ := Option.map_eq_some_iff.mp hi
    refine ⟨r₀, List.mem_of_getElem? hr₀, ?_⟩
    split at ht <;> exact ht
  | resize size => exact (ends_seqRight _ _ _).mpr (hkept.alike ⟨rfl, rfl, rfl, rfl, rfl, rfl⟩)
  | wait time => exact (ends_seqRight _ _ _).mpr (hkept.alike ⟨rfl, rfl, rfl, rfl, rfl, rfl⟩)
  | setClipboard t => exact (ends_seqRight _ _ _).mpr (hkept.alike ⟨rfl, rfl, rfl, rfl, rfl, rfl⟩)
  | setAvailable b => exact (ends_seqRight _ _ _).mpr (hkept.alike ⟨rfl, rfl, rfl, rfl, rfl, rfl⟩)

theorem Sound.settle (h : Sound s) (setup : Setup) : Kept s (ending (settle setup) s) := by
  refine Ends.ending (((kept_invariant setup s).settle h.kept).mono (fun _ _ hs => hs.1) ?_)
  exact fun _ hs => hs

theorem Sound.step (h : Sound s) (setup : Setup) (r : Request) :
    Sound (step setup r s).2 ∧
      (∀ t, Delivered (step setup r s).2 t →
        Delivered s t ∨ (step setup r s).1 = .event (.command t)) ∧
      ∀ t, (step setup r s).1 = .event (.command t) → Submittable t := by
  have hreplied := (h.perform setup r).step
  rcases hstep : Session.step setup r s with ⟨reply, s'⟩
  rw [hstep] at hreplied
  cases reply with
  | done => exact ⟨hreplied.sound, fun _ hd => Or.inl (hreplied.delivered hd), by simp⟩
  | event e =>
    refine ⟨hreplied.sound, fun _ hd => ?_, fun _ ht => ?_⟩
    · exact (hreplied.delivered hd).imp_right (congrArg Reply.event)
    · exact hreplied.complete (Reply.event.inj ht)
  | failed e => exact ⟨hreplied.sound, fun _ hd => Or.inl (hreplied.delivered hd), by simp⟩

theorem sound_of_create {size : Size} {clipboard : Text} {keys : List (Nat × KeyPress)}
    (h : create setup size clipboard keys = .ok s) : Sound s ∧ ∀ t, ¬ Delivered s t := by
  let start := initial setup size clipboard keys
  have hnone : ∀ t, ¬ Delivered start t := fun t ⟨r, hr, _⟩ => nomatch hr
  have hshown : Ends (showPrompt setup false) start (fun _ => Kept start) (Kept start) :=
    ends_showPrompt setup false (fun hpressed => absurd rfl hpressed) fun _ => id
  have hkept := hshown.created h
  exact ⟨hkept.sound, fun t hd => hnone t (hkept.delivered hd)⟩

theorem Reachable.sound (h : Reachable setup s) : Sound s := by
  induction h with
  | created hc => exact (sound_of_create hc).1
  | requested r _ ih => exact (ih.step setup r).1
  | expired _ ih => exact (ih.settle setup).sound

theorem Reachable.submittable (h : Reachable setup s) {t : Text} (hd : Delivered s t) :
    Submittable t := by
  induction h with
  | created hc => exact absurd hd ((sound_of_create hc).2 t)
  | requested r hs ih =>
    obtain ⟨-, hnew, hcomplete⟩ := hs.sound.step setup r
    rcases hnew t hd with hold | hreply
    · exact ih hold
    · exact hcomplete t hreply
  | expired hs ih => exact ih ((hs.sound.settle setup).delivered hd)

structure Submits (setup : Setup) (p : KeyPress) (s q : Session) : Prop where
  listening : s.editor.isListening = true
  enter : Action.ofPress? p = some .enter
  recorded : ∃ settled : Session,
    settle setup { s with notices := s.notices ++ [.keyPress .enter] } = .ok () settled ∧
      settled.editor.readiness = .ready ∧ recordSubmission setup settled = .ok () q

inductive KeysSubmit (setup : Setup) : List (Nat × KeyPress) → Session → Session → Prop
  | here {delay : Nat} {press : KeyPress} {rest : List (Nat × KeyPress)} {s taken q : Session} :
      takeKey setup delay rest s = .ok () taken → Submits setup press taken q →
      KeysSubmit setup ((delay, press) :: rest) s q
  | later {delay : Nat} {press : KeyPress} {rest : List (Nat × KeyPress)}
      {s taken handled q : Session} :
      takeKey setup delay rest s = .ok () taken → handleKey setup press taken = .ok none handled →
      KeysSubmit setup rest handled q → KeysSubmit setup ((delay, press) :: rest) s q

/-- `q` is the session that a request passes through right before the text is forgotten. -/
def PassesThrough (setup : Setup) : Request → Session → Session → Prop
  | .key p, s, q => Submits setup p s q
  | .readline, s, q => s.editor.isClosed = false ∧ KeysSubmit setup s.feed.keys s q
  | _, _, _ => False

/-- The command `t` is the text of `q`, and to hand it over leads to `s'`. -/
structure HandsOver (t : Text) (q s' : Session) : Prop where
  text : t = q.editor.buffer.text
  forgotten : handOver t q = .ok (.command t) s'

theorem ends_submit (setup : Setup) :
    Ends (submit setup) s (fun e s' => ∀ t, e = .command t →
      ∃ q, recordSubmission setup s = .ok () q ∧ HandsOver t q s') fun _ => True := by
  simp only [submit, ends_bind, ends_get]
  have hrecorded := (ends_ok (recordSubmission setup) s).and (ends_recordSubmission setup)
  refine hrecorded.mono (fun _ q hq => ?_) fun _ _ => trivial
  refine (ends_ok (handOver s.editor.buffer.text) q).mono (fun e s' hs' t ht => ?_) fun _ _ => trivial
  cases hs'
  cases ht
  exact ⟨q, hq.1, hq.2.text.symm, rfl⟩

theorem ends_close (Q : Event → Session → Prop) (hQ : ∀ s', Q .close s') :
    Ends close s Q fun _ => True := hQ _

theorem ends_seq_none {Q : Option Event → Session → Prop} (m : Act Unit) (hQ : ∀ s', Q none s') :
    Ends (m *> pure none) s Q fun _ => True :=
  (ends_seqRight _ _ _).mpr ((ends_ok m s).mono (fun _ s' _ => hQ s') fun _ h => h)

theorem ends_runAction (setup : Setup) (action : Action) :
    Ends (runAction setup action) s (fun e s' => ∀ t, e = some (.command t) →
      action = .enter ∧ s.editor.readiness = .ready ∧
        ∃ q, recordSubmission setup s = .ok () q ∧ HandsOver t q s') fun _ => True := by
  cases action with
  | enter =>
    change Ends (enter setup) _ _ _
    rw [enter, ends_bind, ends_get]
    split
    · rename_i hr
      refine (ends_map _ _ _).mpr ((ends_submit setup).mono (fun e s' hs' t ht => ?_) fun _ h => h)
      exact ⟨rfl, hr, hs' t (Option.some.inj ht)⟩
    · exact (ends_bind _ _ _).mpr ((ends_ok _ _).mono (fun _ _ _ => by simp) fun _ h => h)
  | tab => simp [runAction]
  | copy => simp [runAction]
  | interrupt =>
    simp only [runAction, interrupt, ends_bind]
    refine (ends_ok _ _).mono (fun _ a _ => ?_) fun _ h => h
    simp only [ends_get]
    split
    · exact (ends_map _ _ _).mpr (ends_close _ fun _ => by simp)
    · simp only [ends_bind, ends_note, ends_modifyEditor]
      exact (ends_ok _ _).mono (fun _ _ _ => by simp) fun _ h => h
  | exit => exact (ends_map _ _ _).mpr (ends_close _ fun _ => by simp)
  | _ => exact ends_seq_none _ fun _ => by simp

theorem ends_applyAction (setup : Setup) (action : Action) :
    Ends (applyAction setup action) s (fun e s' => ∀ t, e = some (.command t) →
      action = .enter ∧ ∃ settled q, settle setup s = .ok () settled ∧
        settled.editor.readiness = .ready ∧ recordSubmission setup settled = .ok () q ∧
        HandsOver t q s') fun _ => True := by
  refine ends_applyAction_of_settled (fun key => ?_) ?_
  · exact (ends_ok _ _).mono (fun _ _ _ => by simp) fun _ h => h
  · refine (ends_ok (settle setup) s).mono (fun _ a ha => ?_) fun _ h => h
    refine (ends_runAction setup action).mono (fun e s' hs' t ht => ?_) fun _ h => h
    obtain ⟨henter, hr, q, hq, ho⟩ := hs' t ht
    exact ⟨henter, a, q, ha, hr, hq, ho⟩

theorem ends_handleKey (setup : Setup) (p : KeyPress) :
    Ends (handleKey setup p) s (fun e s' => ∀ t, e = some (.command t) →
      ∃ q, Submits setup p s q ∧ HandsOver t q s') fun _ => True := by
  rw [handleKey, ends_bind, ends_get]
  split
  · rename_i hl
    cases ha : Action.ofPress? p with
    | none => simp
    | some action =>
      simp only [ends_bind, ends_note]
      refine (ends_applyAction setup action).mono (fun e s' hs' t ht => ?_) fun _ h => h
      obtain ⟨rfl, settled, q, hsettle, hr, hq, ho⟩ := hs' t ht
      exact ⟨q, ⟨hl, ha, settled, hsettle, hr, hq⟩, ho⟩
  · simp

theorem ends_readKeys (setup : Setup) (keys : List (Nat × KeyPress)) :
    Ends (readKeys setup keys) s (fun e s' => ∀ t, e = .command t →
      ∃ q, KeysSubmit setup keys s q ∧ HandsOver t q s') fun _ => True := by
  induction keys generalizing s with
  | nil => exact ends_close _ fun _ => by simp
  | cons k rest ih =>
    obtain ⟨delay, press⟩ := k
    rw [readKeys, ends_bind]
    refine (ends_ok _ _).mono (fun _ taken htaken => ?_) fun _ h => h
    rw [ends_bind]
    have hhandled := (ends_ok (handleKey setup press) taken).and (ends_handleKey setup press)
    refine hhandled.mono (fun e handled hs => ?_) fun _ _ => trivial
    cases e with
    | none =>
      refine ih.mono (fun e s' hs' t ht => ?_) fun _ h => h
      obtain ⟨q, hq, ho⟩ := hs' t ht
      exact ⟨q, .later htaken hs.1 hq, ho⟩
    | some e =>
      intro t ht
      obtain ⟨q, hq, ho⟩ := hs.2 t (congrArg some ht)
      exact ⟨q, .here htaken hq, ho⟩

theorem ends_perform (setup : Setup) (r : Request) :
    Ends (perform setup r) s (fun e s' => ∀ t, e = some (.command t) →
      ∃ q, PassesThrough setup r s q ∧ HandsOver t q s') fun _ => True := by
  cases r with
  | key p => exact ends_handleKey setup p
  | readline =>
    change Ends (some <$> readline setup) s _ _
    rw [ends_map, readline, ends_bind, ends_get]
    split
    · exact trivial
    · rename_i hopen
      refine (ends_readKeys setup s.feed.keys).mono (fun e s' hs' t ht => ?_) fun _ h => h
      obtain ⟨q, hq, ho⟩ := hs' t (Option.some.inj ht)
      exact ⟨q, ⟨Bool.eq_false_iff.mpr hopen, hq⟩, ho⟩
  | _ => exact ends_seq_none _ fun _ => by simp

theorem handsOver_of_step {r : Request} {t : Text} (h : step setup r s = (.event (.command t), s')) :
    ∃ q, PassesThrough setup r s q ∧ HandsOver t q s' := by
  have hreplied := (ends_perform (s := s) setup r).step
  rw [h] at hreplied
  exact hreplied t rfl

/-- In every session that can be reached, the frames and the readiness are those of the text and all
that was delivered was complete. A command is delivered by the request that answers with it, and it
is the text right before the submission resets it. -/
theorem reachable_submissions_fresh (h : Reachable setup s) :
    s.editor.Fresh ∧ (∀ t, Delivered s t → Submittable t) ∧
      (∀ t, Delivered (ending (settle setup) s) t → Delivered s t) ∧
      ∀ r reply s', step setup r s = (reply, s') →
        (∀ t, Delivered s' t → Delivered s t ∨ reply = .event (.command t)) ∧
        ∀ t, reply = .event (.command t) →
          Submittable t ∧ ∃ q, PassesThrough setup r s q ∧ HandsOver t q s' := by
  refine ⟨h.sound.fresh, fun _ => h.submittable, fun _ => (h.sound.settle setup).delivered, ?_⟩
  intro r reply s' hstep
  obtain ⟨-, hnew, hcomplete⟩ := h.sound.step setup r
  rw [hstep] at hnew hcomplete
  refine ⟨hnew, fun t ht => ⟨hcomplete t ht, ?_⟩⟩
  subst ht
  exact handsOver_of_step hstep

/-- Typed with a line break in it, `fun` and `end` are submitted by the second press of Enter. -/
theorem block_submitted_fresh : ∃ s, Reachable Setup.plain s ∧
    (step Setup.plain (.key (.ofName .enter)) s).1 = .event (.command "fun\nend".toList) ∧
    Submittable "fun\nend".toList ∧
    ∃ q, PassesThrough Setup.plain (.key (.ofName .enter)) s q ∧
      HandsOver "fun\nend".toList q (step Setup.plain (.key (.ofName .enter)) s).2 := by
  let typed := (KeyPress.typing "fun\nend".toList).map Request.key
  have hrun : (create Setup.plain .standard [] []).toOption.map (fun s =>
      (step Setup.plain (.key (.ofName .enter)) (run Setup.plain typed s).2).1) =
        some (.event (.command "fun\nend".toList)) := by
    decide +kernel
  obtain ⟨s, hs, hreply⟩ := Option.map_eq_some_iff.mp hrun
  have hreach := (Reachable.created (created_of_toOption hs)).run typed
  have hfresh := reachable_submissions_fresh hreach
  exact ⟨_, hreach, hreply, (hfresh.2.2.2 _ _ _ rfl).2 _ hreply⟩

end Promptline.Session
