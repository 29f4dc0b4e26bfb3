import Mathlib.Data.List.Forall2
import Promptline.Proofs.Session.Overdue

/-!
The timer cannot be observed. The next key settles a pending press as well as its deadline does, so
a session that is handed its keys as they come answers them like one that waits for them and watches
the deadline. Between two keys the first may be behind by one single press.
-/

set_option autoImplicit false

namespace Promptline.Session

open Keys

variable {setup : Setup} {s s' : Session} {f : Feed}

structure Answer where
  press : KeyPress
  reply : Reply
  session : Session

def resumed? (setup : Setup) : Reply → Session → Option Session
  | .event .close, _ => none
  | .event (.command _), s => some (step setup .prompt s).2
  | _, s => some s

def answers (setup : Setup)
    (pass : Nat × KeyPress → List (Nat × KeyPress) → Session → Reply × Session) :
    List (Nat × KeyPress) → Session → List Answer
  | [], _ => []
  | k :: rest, s =>
    let (reply, s') := pass k rest s
    ⟨k.2, reply, s'⟩ ::
      match resumed? setup reply s' with
      | none => []
      | some t => answers setup pass rest t

/-- The key is handed over when it comes; nothing is settled before. -/
def handed (setup : Setup) (k : Nat × KeyPress) (_ : List (Nat × KeyPress)) (s : Session) :
    Reply × Session :=
  step setup (.key k.2) (step setup (.wait k.1) s).2

def readKey (setup : Setup) (k : Nat × KeyPress) (rest : List (Nat × KeyPress)) :
    Act (Option Event) := do
  takeKey setup k.1 rest
  handleKey setup k.2

def awaited (setup : Setup) (k : Nat × KeyPress) (rest : List (Nat × KeyPress)) (s : Session) :
    Reply × Session :=
  match readKey setup k rest s with
  | .ok e s' => (Reply.ofEvent? e, s')
  | .error e s' => (.failed e, s')

/-- What `readline` returns when it is called again and again until the editor closes, with a prompt
after each command, and the session each time. -/
def readlines (setup : Setup) : Nat → Session → List (Event × Session)
  | 0, _ => []
  | n + 1, s =>
    match step setup .readline s with
    | (.event e, s') =>
      (e, s') ::
        match resumed? setup (.event e) s' with
        | none => []
        | some t => readlines setup n t
    | _ => []

def Answer.event? (a : Answer) : Option (Event × Session) := a.reply.event?.map (·, a.session)

/-- The replies are the same, and after a key for an action the sessions are, but for the keys to
come and the notices. -/
structure Answer.Matches (a b : Answer) : Prop where
  press : b.press = a.press
  reply : b.reply = a.reply
  session : Action.ofPress? a.press ≠ none →
    b.session = { a.session with feed := b.session.feed, notices := b.session.notices }

/-- Two sessions that are the same once overdue presses are settled. -/
def Abreast (setup : Setup) (f : Feed) (a b : Session) : Prop :=
  Beside (Level f) (caughtUp setup a) (caughtUp setup b)

theorem Abreast.of_level (hquiet : ∀ n, setup.fails n = false) {a b : Session}
    (h : Beside (Level f) a b) : Abreast setup f a b := caughtUp_level hquiet h

theorem Abreast.frame (hquiet : ∀ n, setup.fails n = false) {a b : Session}
    (h : Abreast setup f a b) : b.now = a.now ∧ b.feed = f := by
  have heq := level_iff.mp h
  obtain ⟨hnow, -, -⟩ := caughtUp_frame hquiet a
  obtain ⟨hnow', hfeed', -⟩ := caughtUp_frame hquiet b
  rw [heq] at hnow' hfeed'
  exact ⟨hnow'.symm.trans hnow, hfeed'.symm⟩

theorem Abreast.later (hquiet : ∀ n, setup.fails n = false) {a b : Session}
    (h : Abreast setup f a b) (delay : Nat) (g : Feed) :
    Abreast setup g { a with now := a.now + delay } { b with now := b.now + delay, feed := g } := by
  have hlater (s : Session) (g : Feed) :=
    caughtUp_later hquiet (s := s) (Nat.le_add_right s.now delay) g
  have hmoved : Beside (Level g) { caughtUp setup a with now := a.now + delay, feed := a.feed }
      { caughtUp setup b with now := b.now + delay, feed := g } := by
    rw [level_iff, level_iff.mp h, (h.frame hquiet).1]
  have hsettled := caughtUp_level hquiet hmoved
  rwa [hlater, hlater] at hsettled

structure Attentive (s : Session) : Prop where
  isListening : s.editor.isListening = true
  isOpen : s.editor.isClosed = false

theorem Attentive.redrew (h : Attentive s) (hr : Redrew s s') : Attentive s' :=
  ⟨hr.isListening.trans h.isListening, hr.isClosed.trans h.isOpen⟩

theorem ends_showPrompt_open (hquiet : ∀ n, setup.fails n = false)
    (hopen : s.editor.isClosed = false) (onNewLine : Bool) :
    Ends (showPrompt setup onNewLine) s (fun _ => Attentive) fun _ => False := by
  have hshown {a : Session} (ha : a.editor.isClosed = false) : Ends
      (redraw setup false >>= fun _ => modifyEditor fun e => { e with isListening := true }) a
      (fun _ => Attentive) fun _ => False :=
    (ends_bind _ _ _).mpr (ends_redraw_ok hquiet false fun _ => ⟨rfl, ha⟩)
  rw [showPrompt, ends_bind, ends_modifyEditor]
  split
  · exact (ends_bind _ _ _).mpr (ends_draw_ok hquiet _ (hshown hopen))
  · exact hshown hopen

theorem attentive_invariant (hquiet : ∀ n, setup.fails n = false) :
    Invariant setup (fun _ => True) Attentive
      fun e s => e = .close ∨ s.editor.isClosed = false where
  lineFeed := trivial
  pasted _ := trivial
  armed h _ := h.isListening
  noted _ h := ⟨h.isListening, h.isOpen⟩
  passed _ _ h := ⟨h.isListening, h.isOpen⟩
  pressed _ h _ := ⟨h.isListening, h.isOpen⟩
  copied h _ := ⟨h.isListening, h.isOpen⟩
  synced h _ := ⟨h.isListening, h.isOpen⟩
  redrawn {s b} jump h _ _ := by
    have hplaced : Attentive (s.withBuffer b) := ⟨h.isListening, h.isOpen⟩
    exact (ends_redraw setup jump).imp hplaced.redrew
  edited {s b} h _ _ := by
    have hfollowed : Attentive (s.withBuffer b).followed := ⟨h.isListening, h.isOpen⟩
    exact (ends_afterTextChange setup).imp hfollowed.redrew
  browsed {s slot} h _ _ := by
    have hbrowsed : Attentive (s.browsed slot) := ⟨h.isListening, h.isOpen⟩
    exact (ends_redraw setup true).imp hbrowsed.redrew
  cleared h _ := (ends_clearScreen setup).imp h.redrew
  submitted {s} h _ _ _ := by
    simp only [submit, recordSubmission, handOver, ends_bind, ends_get, ends_modifyEditor,
      ends_note, ends_publish, ends_pure]
    refine (ends_redraw_quiet hquiet true).mono (fun _ a ha => ?_) fun _ => False.elim
    exact ends_drawAll_ok hquiet _ (.inr (ha.isClosed.trans h.isOpen))
  prompted h :=
    (ends_showPrompt_open hquiet h.isOpen true).mono (fun _ _ hs => hs) fun _ => False.elim
  closed _ := .inl rfl

theorem create_attentive (hquiet : ∀ n, setup.fails n = false) {size : Size} {clipboard : Text}
    {keys : List (Nat × KeyPress)} (hs : create setup size clipboard keys = .ok s) : Attentive s :=
  (ends_showPrompt_open hquiet rfl false).created hs

/-- One key: after a key for an action the sessions are level, after any other one abreast still. -/
theorem Abreast.pass (hquiet : ∀ n, setup.fails n = false) {a b : Session}
    {keys : List (Nat × KeyPress)} (h : Abreast setup ⟨keys, none⟩ a b)
    (hl : a.editor.isListening = true) (k : Nat × KeyPress) (rest : List (Nat × KeyPress)) :
    ∃ e a' b', handleKey setup k.2 { a with now := a.now + k.1 } = .ok e a' ∧
      readKey setup k rest b = .ok e b' ∧
      (Action.ofPress? k.2 = none ∧ e = none ∧ Abreast setup ⟨rest, none⟩ a' b' ∨
        Beside (Level ⟨rest, none⟩) a' b') := by
  let later : Session := { b with now := b.now + k.1, feed := ⟨rest, none⟩ }
  have harrival : b.feed.arrival = none := congrArg Feed.arrival (h.frame hquiet).2
  have hread : readKey setup k rest b = handleKey setup k.2 (caughtUp setup later) := by
    simp only [readKey, bind, EStateM.bind, takeKey_eq hquiet harrival]
    rfl
  have hlater := h.later hquiet k.1 ⟨rest, none⟩
  rw [hread]
  cases ha : Action.ofPress? k.2 with
  | none =>
    refine ⟨none, _, _, handleKey_of_none ha, handleKey_of_none ha, .inl ⟨rfl, rfl, ?_⟩⟩
    unfold Abreast
    rw [caughtUp_of_punctual (punctual_caughtUp hquiet _)]
    exact hlater
  | some action =>
    have hmeets := handleKey_caughtUp hquiet (s := { a with now := a.now + k.1 }) hl ha hlater
    obtain ⟨e, a', b', ha', hb', hlevel⟩ := hmeets.exists_ok
    exact ⟨e, a', b', ha', hb', .inr hlevel⟩

theorem prompt_level (hquiet : ∀ n, setup.fails n = false) {a b : Session}
    (h : Beside (Level f) a b) :
    Beside (Level f) (step setup .prompt a).2 (step setup .prompt b).2 := by
  have hshown : Meets False AnyChar (Level f) (perform setup .prompt a) (perform setup .prompt b) :=
    ((level_synchrony hquiet f).showPrompt true a b h (within_any a)).seqRight (agree_pure none)
  obtain ⟨e, a', b', ha, hb, hlevel⟩ := hshown.exists_ok
  rwa [step_of_ok (r := .prompt) ha, step_of_ok (r := .prompt) hb]

theorem attentive_of_resumed (hquiet : ∀ n, setup.fails n = false) {e : Option Event} {t : Session}
    (h : Answered Attentive (fun e s => e = .close ∨ s.editor.isClosed = false) e s)
    (ht : resumed? setup (Reply.ofEvent? e) s = some t) : Attentive t := by
  cases e with
  | none =>
    cases ht
    exact h
  | some e =>
    cases e with
    | close => cases ht
    | command text =>
      cases ht
      have hopen : s.editor.isClosed = false := h.resolve_left (by simp)
      have hshown : Ends (perform setup .prompt) s (fun _ => Attentive) fun _ => False :=
        (ends_seqRight _ _ _).mpr (ends_showPrompt_open hquiet hopen true)
      obtain ⟨e, a, hstep, ha⟩ := hshown.replied
      rwa [hstep]

/-- Sessions that were level after the reply to a key are abreast when the next one comes. -/
theorem resumed_abreast (hquiet : ∀ n, setup.fails n = false) {e : Option Event} {a b : Session}
    (h : e = none ∧ Abreast setup f a b ∨ Beside (Level f) a b) :
    resumed? setup (Reply.ofEvent? e) a = none ∧ resumed? setup (Reply.ofEvent? e) b = none ∨
      ∃ t t', resumed? setup (Reply.ofEvent? e) a = some t ∧
        resumed? setup (Reply.ofEvent? e) b = some t' ∧ Abreast setup f t t' := by
  cases e with
  | none => exact .inr ⟨a, b, rfl, rfl, h.elim And.right (Abreast.of_level hquiet)⟩
  | some e =>
    have hlevel := h.resolve_left (by simp)
    cases e with
    | close => exact .inl ⟨rfl, rfl⟩
    | command text =>
      exact .inr ⟨_, _, rfl, rfl, Abreast.of_level hquiet (prompt_level hquiet hlevel)⟩

theorem awaited_of_ok {k : Nat × KeyPress} {rest : List (Nat × KeyPress)} {e : Option Event}
    (h : readKey setup k rest s = .ok e s') : awaited setup k rest s = (Reply.ofEvent? e, s') := by
  rw [awaited, h]

theorem answers_match (hquiet : ∀ n, setup.fails n = false) (keys : List (Nat × KeyPress))
    {a b : Session} (h : Abreast setup ⟨keys, none⟩ a b) (ha : Attentive a) :
    List.Forall₂ Answer.Matches (answers setup (handed setup) keys a)
      (answers setup (awaited setup) keys b) := by
  induction keys generalizing a b with
  | nil => exact .nil
  | cons k rest ih =>
    obtain ⟨e, a', b', ha', hb', hsame⟩ := h.pass hquiet ha.isListening k rest
    have hhanded : handed setup k rest a = (Reply.ofEvent? e, a') := step_of_ok (r := .key k.2) ha'
    have hlater : Attentive { a with now := a.now + k.1 } := ⟨ha.isListening, ha.isOpen⟩
    have hanswered := ((attentive_invariant hquiet).handleKey hlater fun _ _ => trivial).of_ok ha'
    simp only [answers, hhanded, awaited_of_ok hb']
    refine .cons ⟨rfl, rfl, fun hmaps => ?_⟩ ?_
    · rw [level_iff.mp (hsame.resolve_left fun hnone => hmaps hnone.1)]
    · obtain ⟨hnone, hnone'⟩ | ⟨t, t', ht, ht', habreast⟩ :=
        resumed_abreast hquiet (hsame.imp_left And.right)
      · rw [hnone, hnone']
        exact .nil
      · rw [ht, ht']
        exact ih habreast (attentive_of_resumed hquiet hanswered ht)

theorem readKeys_cons (setup : Setup) (k : Nat × KeyPress) (rest : List (Nat × KeyPress)) :
    readKeys setup (k :: rest) = readKey setup k rest >>= fun e =>
      match e with
      | some event => pure event
      | none => readKeys setup rest :=
  (bind_assoc (takeKey setup k.1 rest) _ _).symm

theorem readline_of_open (hopen : s.editor.isClosed = false) :
    readline setup s = readKeys setup s.feed.keys s := by
  rw [readline, get_bind, hopen]
  rfl

theorem readline_of_event {k : Nat × KeyPress} {rest : List (Nat × KeyPress)} {e : Event}
    (hopen : s.editor.isClosed = false) (hkeys : s.feed.keys = k :: rest)
    (h : readKey setup k rest s = .ok (some e) s') :
    step setup .readline s = (.event e, s') := by
  have hread : readline setup s = .ok e s' := by
    rw [readline_of_open hopen, hkeys, readKeys_cons]
    simp only [bind, EStateM.bind, h]
    rfl
  refine step_of_ok (e := some e) ?_
  simp only [perform, Functor.map, EStateM.map, hread]

/-- After a key without an event `readline` goes on as if it were called then. -/
theorem readline_of_none {k : Nat × KeyPress} {rest : List (Nat × KeyPress)}
    (hopen : s.editor.isClosed = false) (hkeys : s.feed.keys = k :: rest)
    (h : readKey setup k rest s = .ok none s') (hopen' : s'.editor.isClosed = false)
    (hkeys' : s'.feed.keys = rest) : step setup .readline s = step setup .readline s' := by
  have hread : readline setup s = readline setup s' := by
    rw [readline_of_open hopen, hkeys, readKeys_cons, readline_of_open hopen', hkeys']
    simp only [bind, EStateM.bind, h]
  simp only [step, perform, Functor.map, EStateM.map, hread]

theorem readlines_congr (h : step setup .readline s = step setup .readline s') (n : Nat) :
    readlines setup n s = readlines setup n s' := by
  cases n with
  | zero => rfl
  | succ n => simp only [readlines, h]

structure Waited (setup : Setup) (rest : List (Nat × KeyPress)) (e : Option Event) (s : Session) :
    Prop where
  answered : Answered Attentive (fun e s => e = .close ∨ s.editor.isClosed = false) e s
  feed : s.feed = ⟨rest, none⟩
  punctual : Punctual s
  resumed {t : Session} : resumed? setup (Reply.ofEvent? e) s = some t →
    Attentive t ∧ t.feed = ⟨rest, none⟩

theorem exists_waited (hquiet : ∀ n, setup.fails n = false) {k : Nat × KeyPress}
    {rest : List (Nat × KeyPress)} (hs : Attentive s) (hfeed : s.feed = ⟨k :: rest, none⟩) :
    ∃ e b, readKey setup k rest s = .ok e b ∧ Waited setup rest e b := by
  have habreast : Abreast setup ⟨k :: rest, none⟩ s s := .of_level hquiet (hfeed ▸ level_refl s)
  obtain ⟨e, a, b, -, hread, hsame⟩ := habreast.pass hquiet hs.isListening k rest
  have hanswered : Ends (readKey setup k rest) s
      (Answered Attentive fun e s => e = .close ∨ s.editor.isClosed = false) Attentive := by
    have hinv := attentive_invariant hquiet
    rw [readKey, ends_bind]
    exact (hinv.takeKey hs k.1 rest).mono
      (fun _ _ h => hinv.handleKey h fun _ _ => trivial) fun _ h => h
  have hpunctual : Ends (readKey setup k rest) s (fun _ => Punctual) fun _ => False := by
    have harrival : s.feed.arrival = none := congrArg Feed.arrival hfeed
    rw [readKey, ends_bind]
    refine ends_of_ok (takeKey_eq hquiet harrival k.1 rest) ?_
    exact ends_handleKey_punctual hquiet (punctual_caughtUp hquiet _) k.2
  refine ⟨e, b, hread, hanswered.of_ok hread, ?_, hpunctual.of_ok hread, fun {t} ht => ⟨?_, ?_⟩⟩
  · exact ((hsame.elim (fun h => h.2.2) (Abreast.of_level hquiet)).frame hquiet).2
  · exact attentive_of_resumed hquiet (hanswered.of_ok hread) ht
  · obtain ⟨-, hnone⟩ | ⟨_, t', -, ht', hnext⟩ := resumed_abreast hquiet (hsame.imp_left And.right)
    · cases hnone.symm.trans ht
    · cases ht'.symm.trans ht
      exact (hnext.frame hquiet).2

/-- Where the deadlines are watched no press stays pending beyond its own. -/
theorem answers_punctual (hquiet : ∀ n, setup.fails n = false) (keys : List (Nat × KeyPress))
    (hs : Attentive s) (hfeed : s.feed = ⟨keys, none⟩) :
    ∀ x ∈ answers setup (awaited setup) keys s, Punctual x.session := by
  induction keys generalizing s with
  | nil => simp [answers]
  | cons k rest ih =>
    obtain ⟨e, b, hread, hwaited⟩ := exists_waited hquiet hs hfeed
    simp only [answers, awaited_of_ok hread, List.forall_mem_cons]
    refine ⟨hwaited.punctual, ?_⟩
    cases ht : resumed? setup (Reply.ofEvent? e) b with
    | none => simp
    | some t =>
      obtain ⟨hattentive, hfeed'⟩ := hwaited.resumed ht
      exact ih hattentive hfeed'

theorem readlines_eq (hquiet : ∀ n, setup.fails n = false) (keys : List (Nat × KeyPress))
    (hs : Attentive s) (hfeed : s.feed = ⟨keys, none⟩) {n : Nat} (hn : keys.length ≤ n) :
    ∃ last, readlines setup (n + 1) s =
        (answers setup (awaited setup) keys s).filterMap Answer.event? ++ last ∧
      ∀ x ∈ last, x.1 = .close := by
  induction keys generalizing s n with
  | nil =>
    have hclosed : step setup .readline s = (.event .close, ending close s) := by
      refine step_of_ok (e := some .close) ?_
      simp only [perform, Functor.map, EStateM.map, readline_of_open hs.isOpen, hfeed]
      rfl
    refine ⟨[(.close, ending close s)], ?_, by simp⟩
    simp [readlines, answers, hclosed, resumed?]
  | cons k rest ih =>
    have hkeys : s.feed.keys = k :: rest := congrArg Feed.keys hfeed
    obtain ⟨e, b, hread, hwaited⟩ := exists_waited hquiet hs hfeed
    simp only [answers, awaited_of_ok hread]
    cases e with
    | none =>
      -- No event: the call of `readline` that waited for this key waits for the next one.
      have hlength : rest.length ≤ n := Nat.le_of_succ_le hn
      have hopen : b.editor.isClosed = false := hwaited.answered.isOpen
      have hsilent := readline_of_none hs.isOpen hkeys hread hopen (congrArg Feed.keys hwaited.feed)
      rw [readlines_congr hsilent]
      exact ih hwaited.answered hwaited.feed hlength
    | some e =>
      obtain ⟨n, rfl⟩ : ∃ m, n = m + 1 := ⟨n - 1, by simp at hn; omega⟩
      have hlength : rest.length ≤ n := Nat.le_of_succ_le_succ hn
      rw [readlines]
      simp only [readline_of_event hs.isOpen hkeys hread]
      cases ht : resumed? setup (.event e) b with
      | none =>
        refine ⟨[], ?_, by simp⟩
        simp [Reply.ofEvent?, ht, Answer.event?, Reply.event?]
      | some t =>
        obtain ⟨hattentive, hfeed'⟩ := hwaited.resumed ht
        obtain ⟨last, hlines, hlast⟩ := ih hattentive hfeed' hlength
        refine ⟨last, ?_, hlast⟩
        simp [Reply.ofEvent?, ht, Answer.event?, Reply.event?, hlines]

/-- Keys that are handed over as they come get the same replies as keys that `readline` waits for,
with which no press outlives its deadline. After each key for an action the two sessions are the
same in all but the keys to come and the notices: in what has been drawn, copied and published, in
the text, its frames and the cursor, in the history and the pending press. -/
theorem timer_unobservable (hquiet : ∀ n, setup.fails n = false) (hs : Attentive s)
    (keys : List (Nat × KeyPress)) :
    let fed : Session := { s with feed := ⟨keys, none⟩ }
    let watched := answers setup (awaited setup) keys fed
    List.Forall₂ Answer.Matches (answers setup (handed setup) keys s) watched ∧
      (∀ x ∈ watched, Punctual x.session) ∧
      ∃ last, readlines setup (keys.length + 1) fed = watched.filterMap Answer.event? ++ last ∧
        ∀ x ∈ last, x.1 = .close := by
  intro fed watched
  have hlevel : Beside (Level ⟨keys, none⟩) s fed := ⟨rfl, rfl⟩
  have hfed : Attentive fed := ⟨hs.isListening, hs.isOpen⟩
  exact ⟨answers_match hquiet keys (.of_level hquiet hlevel) hs,
    answers_punctual hquiet keys hfed rfl, readlines_eq hquiet keys hfed rfl (Nat.le_refl _)⟩

/-- A press of Tab is settled by its deadline in one session and by the next letter in the other. -/
theorem late_tab_unobserved : ∃ (keys : List (Nat × KeyPress)) (s : Session), Attentive s ∧
    List.Forall₂ Answer.Matches (answers Setup.plain (handed Setup.plain) keys s)
      (answers Setup.plain (awaited Setup.plain) keys { s with feed := ⟨keys, none⟩ }) ∧
    (answers Setup.plain (handed Setup.plain) keys s).map
      (fun a => a.session.editor.presses.isSome) = [false, true, true, false] ∧
    (answers Setup.plain (awaited Setup.plain) keys { s with feed := ⟨keys, none⟩ }).map
      (fun a => a.session.editor.presses.isSome) = [false, true, false, false] := by
  let keys : List (Nat × KeyPress) :=
    [(10, .ofChar 'a'), (10, .ofName .tab), (500, .ofName .escape), (10, .ofChar 'b')]
  have hrun : (create Setup.plain .standard [] []).toOption.any (fun s =>
      (answers Setup.plain (handed Setup.plain) keys s).map
        (fun a => a.session.editor.presses.isSome) == [false, true, true, false] &&
      (answers Setup.plain (awaited Setup.plain) keys { s with feed := ⟨keys, none⟩ }).map
        (fun a => a.session.editor.presses.isSome) == [false, true, false, false]) = true := by
    decide +kernel
  obtain ⟨s, hs, hfacts⟩ := (Option.any_eq_true _ _).mp hrun
  simp only [Bool.and_eq_true, beq_iff_eq] at hfacts
  have hs := create_attentive (fun _ => rfl) (created_of_toOption hs)
  exact ⟨keys, s, hs, (timer_unobservable (fun _ => rfl) hs keys).1, hfacts⟩

end Promptline.Session
