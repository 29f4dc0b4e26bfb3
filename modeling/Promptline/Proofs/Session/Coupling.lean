import Mathlib.Data.List.Forall2
import Promptline.Proofs.Session.Characters

/-!
Two sessions side by side. Actions read nothing of the pending key, the drawing calls made, the
clock, the keys to come and the notices, so sessions that differ in these only answer an action
alike, and differ in these only after it. What the drawings have in common can depend on the
characters of the text, so these are followed alongside.
-/

set_option autoImplicit false

namespace Promptline.Session

open Keys Terminal

structure Aside where
  presses : DoublePress
  drawn : List Call
  now : Nat
  feed : Feed
  notices : List Log.Notice

def aside (s : Session) : Aside := ⟨s.editor.presses, s.drawn, s.now, s.feed, s.notices⟩

def withAside (s : Session) (a : Aside) : Session :=
  { s with
    editor := { s.editor with presses := a.presses }
    drawn := a.drawn
    now := a.now
    feed := a.feed
    notices := a.notices }

structure Beside (A : Aside → Aside → Prop) (s s' : Session) : Prop where
  rest : s' = s.withAside s'.aside
  aside : A s.aside s'.aside

variable {α β : Type} {F : Prop} {C : Char → Prop} {A : Aside → Aside → Prop} {s s' : Session}

/-- Both runs end with one result, or both fail with one error if `F` lets them fail. The characters
of the text, the history and the clipboard satisfy `C` then. -/
inductive Meets (F : Prop) (C : Char → Prop) (A : Aside → Aside → Prop) :
    EStateM.Result Error Session α → EStateM.Result Error Session α → Prop
  | ok {x : α} {s s' : Session} : Beside A s s' → Within C s → Meets F C A (.ok x s) (.ok x s')
  | error {e : Error} {s s' : Session} : F → Beside A s s' → Within C s →
    Meets F C A (.error e s) (.error e s')

def Agree (F : Prop) (C : Char → Prop) (A : Aside → Aside → Prop) (m m' : Act α) : Prop :=
  ∀ s s', Beside A s s' → Within C s → Meets F C A (m s) (m' s')

theorem Meets.exists_ok {r r' : EStateM.Result Error Session α} (h : Meets False C A r r') :
    ∃ x t t', r = .ok x t ∧ r' = .ok x t' ∧ Beside A t t' := by
  cases h with
  | ok hb _ => exact ⟨_, _, _, rfl, rfl, hb⟩
  | error hf _ _ => exact hf.elim

theorem Meets.bind {m m' : Act α} {f f' : α → Act β} (h : Meets F C A (m s) (m' s'))
    (hf : ∀ x, Agree F C A (f x) (f' x)) : Meets F C A ((m >>= f) s) ((m' >>= f') s') := by
  simp only [Bind.bind, EStateM.bind]
  generalize m s = r at h ⊢
  generalize m' s' = r' at h ⊢
  cases h with
  | ok hb hw => exact hf _ _ _ hb hw
  | error he hb hw => exact .error he hb hw

theorem Meets.seqRight {m m' : Act α} {n n' : Act β} (h : Meets F C A (m s) (m' s'))
    (hn : Agree F C A n n') : Meets F C A ((m *> n) s) ((m' *> n') s') := by
  simp only [SeqRight.seqRight, EStateM.seqRight]
  generalize m s = r at h ⊢
  generalize m' s' = r' at h ⊢
  cases h with
  | ok hb hw => exact hn _ _ hb hw
  | error he hb hw => exact .error he hb hw

theorem agree_pure (x : α) : Agree F C A (pure x) (pure x) :=
  fun _ _ hs hw => .ok hs hw

theorem agree_bind {m m' : Act α} {f f' : α → Act β} (h : Agree F C A m m')
    (hf : ∀ x, Agree F C A (f x) (f' x)) : Agree F C A (m >>= f) (m' >>= f') :=
  fun s s' hs hw => (h s s' hs hw).bind hf

theorem agree_seqRight {m m' : Act α} {n n' : Act β} (h : Agree F C A m m') (hn : Agree F C A n n') :
    Agree F C A (m *> n) (m' *> n') :=
  fun s s' hs hw => (h s s' hs hw).seqRight hn

theorem agree_map {m m' : Act α} (g : α → β) (h : Agree F C A m m') :
    Agree F C A (g <$> m) (g <$> m') := by
  intro s s' hs hw
  have hmeets := h s s' hs hw
  simp only [Functor.map, EStateM.map]
  generalize m s = r at hmeets ⊢
  generalize m' s' = r' at hmeets ⊢
  cases hmeets with
  | ok hb hw => exact .ok hb hw
  | error he hb hw => exact .error he hb hw

theorem agree_ite {c : Prop} [Decidable c] {m m' n n' : Act α} (h : Agree F C A m m')
    (hn : Agree F C A n n') : Agree F C A (if c then m else n) (if c then m' else n') := by
  by_cases hc : c
  · simpa only [if_pos hc] using h
  · simpa only [if_neg hc] using hn

theorem agree_get {f f' : Session → Act α}
    (h : ∀ s s', Beside A s s' → Within C s → Agree F C A (f s) (f' s')) :
    Agree F C A (get >>= f) (get >>= f') :=
  fun s s' hs hw => h s s' hs hw s s' hs hw

/-- A change that takes no notice of the parts aside. -/
theorem agree_modify (f : Session → Session)
    (hf : ∀ s a, f (s.withAside a) = (f s).withAside a) (hk : ∀ s, (f s).aside = s.aside)
    (hwithin : ∀ s, Within C s → Within C (f s)) :
    Agree F C A (modify f : Act Unit) (modify f) := by
  intro s s' hs hw
  refine .ok ⟨?_, ?_⟩ (hwithin s hw)
  · rw [hk, ← hf, ← hs.rest]
  · rw [hk, hk]
    exact hs.aside

theorem agree_modifyEditor (f : Editor → Editor)
    (hf : ∀ e d, f { e with presses := d } = { f e with presses := d })
    (hk : ∀ e, (f e).presses = e.presses)
    (hwithin : ∀ s, Within C s → Within C { s with editor := f s.editor }) :
    Agree F C A (modifyEditor f) (modifyEditor f) := by
  refine agree_modify (fun s => { s with editor := f s.editor }) (fun s a => ?_) (fun s => ?_) hwithin
  · unfold withAside
    rw [hf]
  · unfold aside
    rw [hk]

theorem agree_publish (e : Event) : Agree F C A (publish e) (publish e) :=
  agree_modify _ (fun _ _ => rfl) (fun _ => rfl) fun _ h => h.keep rfl rfl rfl

/-- What two setups and a relation have to satisfy for actions to agree. -/
structure Coupling (F : Prop) (C : Char → Prop) (A : Aside → Aside → Prop) (setup setup' : Setup) :
    Prop where
  config : setup'.config = setup.config
  lineFeed : C '\n'
  indentUnit : Only C setup.config.indentUnit
  noted (n : Log.Notice) : Agree F C A (note n) (note n)
  drew (c : Call) : Agree F C A (draw setup c) (draw setup' c)
  redrew (jump : Bool) : Agree F C A (redraw setup jump) (redraw setup' jump)

theorem agree_drawAll {setup setup' : Setup} {cs cs' : List Call}
    (h : List.Forall₂ (fun c c' => Agree F C A (draw setup c) (draw setup' c')) cs cs') :
    Agree F C A (drawAll setup cs) (drawAll setup' cs') := by
  induction h with
  | nil => exact agree_pure ()
  | cons hc _ ih => exact agree_bind hc fun _ => ih

theorem agree_drawAll_same {setup setup' : Setup}
    (h : ∀ c, Agree F C A (draw setup c) (draw setup' c)) (cs : List Call) :
    Agree F C A (drawAll setup cs) (drawAll setup' cs) :=
  agree_drawAll (List.forall₂_same.mpr fun c _ => h c)

/-- Views differ between two setups at most in what they write, so it remains to draw them alike. -/
theorem agree_redraw {setup setup' : Setup} (hconfig : setup'.config = setup.config)
    (hdraw : ∀ c, Agree F C A (draw setup c) (draw setup' c))
    (hview : ∀ size jump last b width, Only C b.text →
      Agree F C A (drawAll setup ((View.ofBuffer setup size jump last b).calls width))
        (drawAll setup' ((View.ofBuffer setup' size jump last b).calls width))) (jump : Bool) :
    Agree F C A (redraw setup jump) (redraw setup' jump) := by
  obtain ⟨config, presenter, fails⟩ := setup'
  subst hconfig
  refine agree_get fun s s' hs hw => ?_
  have hplaced : Only C ((if jump then s.editor.buffer.moveToEnd else s.editor.buffer).updateScreenRow
      (s.context setup)).text := by
    split
    · exact (Buffer.moveToEnd_text s.editor.buffer).symm ▸ hw.text
    · exact hw.text
  rw [hs.rest]
  refine agree_bind (agree_modifyEditor _ (fun _ _ => rfl) (fun _ => rfl) fun _ h => ?_) fun _ => ?_
  · exact ⟨hplaced, h.history, h.clipboard⟩
  refine agree_bind (agree_drawAll_same hdraw _) fun _ => ?_
  refine agree_bind (agree_modifyEditor _ (fun _ _ => rfl) (fun _ => rfl) fun _ h => ?_) fun _ => ?_
  · exact h.keep rfl rfl rfl
  exact hview _ jump _ _ _ hplaced

namespace Coupling

variable {setup setup' : Setup}

theorem showPrompt (c : Coupling F C A setup setup') (onNewLine : Bool) :
    Agree F C A (showPrompt setup onNewLine) (showPrompt setup' onNewLine) := by
  have hshown : Agree F C A
      (redraw setup false >>= fun _ => modifyEditor fun e => { e with isListening := true })
      (redraw setup' false >>= fun _ => modifyEditor fun e => { e with isListening := true }) :=
    agree_bind (c.redrew false) fun _ =>
      agree_modifyEditor _ (fun _ _ => rfl) (fun _ => rfl) fun _ h => h.keep rfl rfl rfl
  refine agree_bind (agree_modifyEditor _ (fun _ _ => rfl) (fun _ => rfl) fun _ h => ?_) fun _ => ?_
  · exact ⟨List.forall_mem_nil C, h.history, h.clipboard⟩
  · exact agree_ite (agree_bind (c.drew _) fun _ => hshown) hshown

theorem close (c : Coupling F C A setup setup') : Agree F C A close close := by
  refine agree_get fun s s' hs _ => ?_
  rw [hs.rest]
  refine agree_bind (agree_modifyEditor _ (fun _ _ => rfl) (fun _ => rfl) fun _ h => ?_) fun _ => ?_
  · exact h.keep rfl rfl rfl
  · exact agree_bind (c.noted _) fun _ => agree_bind (agree_publish _) fun _ => agree_pure _

theorem afterTextChange (c : Coupling F C A setup setup') :
    Agree F C A (afterTextChange setup) (afterTextChange setup') := by
  refine agree_bind (agree_modifyEditor _ (fun _ _ => rfl) (fun _ => rfl) fun _ h => ?_) fun _ => ?_
  · exact ⟨h.text, h.history.sync h.text, h.clipboard⟩
  · exact c.redrew false

theorem edited (c : Coupling F C A setup setup') {b : Buffer} (hw : Within C s)
    (h : Edit setup (Only C) s b) : Within C (s.withBuffer b) :=
  ⟨h.only hw.text c.lineFeed c.indentUnit, hw.history, hw.clipboard⟩

theorem reindentLine (c : Coupling F C A setup setup') :
    Agree F C A (reindentLine setup) (reindentLine setup') := by
  have hsame : Session.reindentLine setup' = Session.reindentLine setup := by
    simp only [Session.reindentLine, context, c.config]
  rw [hsame]
  exact agree_modify _ (fun _ _ => rfl) (fun _ => rfl) fun _ h => c.edited h .reindentLine

theorem reindentAll (c : Coupling F C A setup setup') :
    Agree F C A (reindentAll setup) (reindentAll setup') := by
  have hsame : Session.reindentAll setup' = Session.reindentAll setup := by
    simp only [Session.reindentAll, context, c.config]
  rw [hsame]
  exact agree_modify _ (fun _ _ => rfl) (fun _ => rfl) fun _ h => c.edited h .reindentAll

theorem insertText (c : Coupling F C A setup setup') {t : Text} (ht : Only C t) :
    Agree F C A (insertText setup t) (insertText setup' t) := by
  refine agree_bind (agree_modifyEditor _ (fun _ _ => rfl) (fun _ => rfl) fun _ h => ?_) fun _ => ?_
  · exact c.edited h (.insert ht)
  · exact agree_ite (agree_bind c.reindentLine fun _ => c.afterTextChange) c.afterTextChange

theorem deleteWith (c : Coupling F C A setup setup') {delete : Buffer → Option Buffer}
    (hd : ∀ s b, delete s.editor.buffer = some b → Edit setup (Only C) s b) :
    Agree F C A (deleteWith setup delete) (deleteWith setup' delete) := by
  refine agree_get fun s s' hs hw => ?_
  have hbuffer : s'.editor.buffer = s.editor.buffer := by
    rw [hs.rest]
    rfl
  rw [hbuffer]
  cases hb : delete s.editor.buffer with
  | none => exact agree_pure ()
  | some b =>
    have htext := (c.edited hw (hd s b hb)).text
    refine agree_bind (agree_modifyEditor _ (fun _ _ => rfl) (fun _ => rfl) fun _ h => ?_) fun _ => ?_
    · exact ⟨htext, h.history, h.clipboard⟩
    · exact c.afterTextChange

theorem copyText (c : Coupling F C A setup setup') {t : Text} (ht : Only C t) :
    Agree F C A (copyText t) (copyText t) := by
  refine agree_get fun s s' hs _ => ?_
  rw [hs.rest]
  refine agree_ite (agree_modify _ (fun _ _ => rfl) (fun _ => rfl) fun _ h => ?_) (c.noted _)
  exact ⟨h.text, h.history, ht.normalizeNewlines c.lineFeed⟩

theorem paste (c : Coupling F C A setup setup') : Agree F C A (paste setup) (paste setup') := by
  refine agree_get fun s s' hs hw => ?_
  rw [hs.rest]
  exact agree_ite (c.insertText hw.clipboard) (c.noted _)

theorem runSingle (c : Coupling F C A setup setup') (key : TwiceKey) :
    Agree F C A (runSingle setup key) (runSingle setup' key) := by
  refine agree_bind (c.noted _) fun _ => ?_
  cases key with
  | tab => exact agree_bind c.reindentLine fun _ => c.afterTextChange
  | copy =>
    refine agree_get fun s s' hs hw => ?_
    rw [hs.rest]
    exact c.copyText (hw.text.subset (getLine_subset _ 0 true))

theorem runDouble (c : Coupling F C A setup setup') (key : TwiceKey) :
    Agree F C A (runDouble setup key) (runDouble setup' key) := by
  refine agree_bind (c.noted _) fun _ => ?_
  cases key with
  | tab => exact agree_bind c.reindentAll fun _ => c.afterTextChange
  | copy =>
    refine agree_get fun s s' hs hw => ?_
    rw [hs.rest]
    exact c.copyText hw.text

theorem browse (c : Coupling F C A setup setup') {go : History → Option History}
    (hgo : ∀ h h', History.Within C h → go h = some h' → History.Within C h') :
    Agree F C A (browse setup go) (browse setup' go) := by
  refine agree_get fun s s' hs hw => ?_
  have hhistory : s'.editor.history = s.editor.history := by
    rw [hs.rest]
    rfl
  rw [hhistory]
  cases hh : go s.editor.history with
  | none => exact agree_pure ()
  | some h =>
    have hslots := hgo _ h hw.history hh
    refine agree_bind (agree_modifyEditor _ (fun _ _ => rfl) (fun _ => rfl) fun _ hw => ?_) fun _ => ?_
    · refine ⟨?_, hslots, hw.clipboard⟩
      exact Only.append hslots.shown (List.forall_mem_nil C)
    · exact c.redrew true

theorem moveWith (c : Coupling F C A setup setup') {move : Buffer → Buffer}
    (hm : ∀ b, (move b).text = b.text) :
    Agree F C A (moveWith setup move) (moveWith setup' move) :=
  agree_bind (agree_modifyEditor _ (fun _ _ => rfl) (fun _ => rfl) fun _ h => h.keep (hm _) rfl rfl)
    fun _ => c.redrew false

theorem moveUp (c : Coupling F C A setup setup') : Agree F C A (moveUp setup) (moveUp setup') := by
  refine agree_get fun s s' hs _ => ?_
  rw [hs.rest]
  exact agree_ite (c.browse fun _ _ => History.Within.prev)
    (c.moveWith fun _ => Buffer.getD_text fun _ => Buffer.moveToPrevLine?_text)

theorem moveDown (c : Coupling F C A setup setup') :
    Agree F C A (moveDown setup) (moveDown setup') := by
  refine agree_get fun s s' hs _ => ?_
  rw [hs.rest]
  exact agree_ite (c.browse fun _ _ => History.Within.next)
    (c.moveWith fun _ => Buffer.getD_text fun _ => Buffer.moveToNextLine?_text)

theorem clearScreen (c : Coupling F C A setup setup') :
    Agree F C A (clearScreen setup) (clearScreen setup') := by
  refine agree_bind (agree_drawAll_same c.drew _) fun _ => ?_
  refine agree_bind (agree_modifyEditor _ (fun _ _ => rfl) (fun _ => rfl) fun _ h => ?_) fun _ => ?_
  · exact h.keep rfl rfl rfl
  · exact c.redrew false

theorem submit (c : Coupling F C A setup setup') : Agree F C A (submit setup) (submit setup') := by
  have hrecorded : Agree F C A (recordSubmission setup) (recordSubmission setup') := by
    refine agree_get fun s s' hs hw => ?_
    rw [hs.rest]
    refine agree_bind (agree_modifyEditor _ (fun _ _ => rfl) (fun _ => rfl) fun _ h => ?_) fun _ => ?_
    · exact ⟨h.text, hw.history.commit hw.text, h.clipboard⟩
    · refine agree_bind (c.noted _) fun _ => agree_bind (c.redrew true) fun _ => ?_
      exact agree_bind (agree_drawAll_same c.drew _) fun _ => c.noted _
  refine agree_get fun s s' hs _ => ?_
  rw [hs.rest]
  refine agree_bind hrecorded fun _ => ?_
  refine agree_bind (agree_modifyEditor _ (fun _ _ => rfl) (fun _ => rfl) fun _ h => ?_) fun _ => ?_
  · exact ⟨List.forall_mem_nil C, h.history, h.clipboard⟩
  · exact agree_bind (agree_publish _) fun _ => agree_pure _

theorem interrupt (c : Coupling F C A setup setup') :
    Agree F C A (interrupt setup) (interrupt setup') := by
  refine agree_bind (c.redrew true) fun _ => agree_get fun s s' hs hw => ?_
  rw [hs.rest]
  refine agree_ite (agree_map _ c.close) ?_
  refine agree_bind (c.noted _) fun _ => ?_
  refine agree_bind (agree_modifyEditor _ (fun _ _ => rfl) (fun _ => rfl) fun _ h => ?_) fun _ => ?_
  · exact ⟨h.text, h.history.sync h.text, h.clipboard⟩
  · exact agree_bind (c.showPrompt true) fun _ => agree_pure _

theorem enter (c : Coupling F C A setup setup') : Agree F C A (enter setup) (enter setup') := by
  have hfeed : Only C ['\n'] := List.forall_mem_singleton.mpr c.lineFeed
  refine agree_get fun s s' hs _ => ?_
  rw [hs.rest]
  exact agree_ite (agree_map _ c.submit) (agree_bind (c.insertText hfeed) fun _ => agree_pure _)

theorem runAction (c : Coupling F C A setup setup') (action : Action)
    (ht : ∀ t, action = .insert t → Only C t) :
    Agree F C A (runAction setup action) (runAction setup' action) := by
  have hfeed : Only C ['\n'] := List.forall_mem_singleton.mpr c.lineFeed
  have hdone {m m' : Act Unit} (h : Agree F C A m m') :
      Agree F C A (m *> pure (none : Option Event)) (m' *> pure none) :=
    agree_seqRight h (agree_pure _)
  cases action with
  | enter => exact c.enter
  | insertNewline => exact hdone (c.insertText hfeed)
  | insert t => exact hdone (c.insertText (ht t rfl))
  | tab => exact agree_pure _
  | copy => exact agree_pure _
  | paste => exact hdone c.paste
  | up => exact hdone c.moveUp
  | down => exact hdone c.moveDown
  | left => exact hdone (c.moveWith fun _ => Buffer.getD_text fun _ => Buffer.moveLeft?_text)
  | right => exact hdone (c.moveWith fun _ => Buffer.getD_text fun _ => Buffer.moveRight?_text)
  | lineStart => exact hdone (c.moveWith Buffer.moveToLineStart_text)
  | lineEnd => exact hdone (c.moveWith Buffer.moveToLineEnd_text)
  | backspace => exact hdone (c.deleteWith fun _ _ => .deleteBefore)
  | delete => exact hdone (c.deleteWith fun _ _ => .deleteAfter)
  | clearScreen => exact hdone c.clearScreen
  | interrupt => exact c.interrupt
  | exit => exact agree_map _ c.close

end Coupling

structure Synchrony (F : Prop) (C : Char → Prop) (A : Aside → Aside → Prop) (setup setup' : Setup) :
    Prop extends Coupling F C A setup setup' where
  presses {a a' : Aside} : A a a' → a'.presses = a.presses
  now {a a' : Aside} : A a a' → a'.now = a.now
  pressed {a a' : Aside} (d : DoublePress) :
    A a a' → A { a with presses := d } { a' with presses := d }

namespace Synchrony

variable {setup setup' : Setup}

theorem press (c : Synchrony F C A setup setup') (d : DoublePress) :
    Agree F C A (modifyEditor fun e => { e with presses := d })
      (modifyEditor fun e => { e with presses := d }) := by
  intro s s' hs hw
  refine .ok ⟨?_, c.pressed d hs.aside⟩ (hw.keep rfl rfl rfl)
  rw [hs.rest]
  rfl

theorem settle (c : Synchrony F C A setup setup') :
    Agree F C A (settle setup) (settle setup') := by
  refine agree_get fun s s' hs _ => ?_
  have hpresses : s'.editor.presses = s.editor.presses := c.presses hs.aside
  rw [hpresses]
  cases s.editor.presses with
  | none => exact agree_pure ()
  | some p => exact agree_bind (c.press none) fun _ => c.runSingle p.key

theorem pressTwiceKey (c : Synchrony F C A setup setup') (key : TwiceKey) :
    Agree F C A (pressTwiceKey setup key) (pressTwiceKey setup' key) := by
  refine agree_get fun s s' hs _ => ?_
  have hpresses : s'.editor.presses = s.editor.presses := c.presses hs.aside
  have hnow : s'.now = s.now := c.now hs.aside
  rw [hpresses, hnow, c.config]
  rcases s.editor.presses.press key s.now (setup.config.window key) with ⟨outcome, presses⟩
  refine agree_bind (c.press presses) fun _ => ?_
  cases outcome with
  | double k => exact c.runDouble k
  | armed flushed =>
    cases flushed with
    | none => exact agree_pure ()
    | some k => exact c.runSingle k

theorem applyAction (c : Synchrony F C A setup setup') (action : Action)
    (ht : ∀ t, action = .insert t → Only C t) :
    Agree F C A (applyAction setup action) (applyAction setup' action) := by
  have hsettled := agree_bind c.settle fun _ => c.runAction action ht
  cases action with
  | tab => exact agree_seqRight (c.pressTwiceKey .tab) (agree_pure _)
  | copy => exact agree_seqRight (c.pressTwiceKey .copy) (agree_pure _)
  | _ => exact hsettled

theorem handleKey (c : Synchrony F C A setup setup') {p : KeyPress} (hp : TypesOnly (Only C) p) :
    Agree F C A (handleKey setup p) (handleKey setup' p) := by
  refine agree_get fun s s' hs _ => ?_
  rw [hs.rest]
  refine agree_ite ?_ (agree_pure _)
  cases ha : Action.ofPress? p with
  | none => exact agree_pure _
  | some action =>
    exact agree_bind (c.noted _) fun _ => c.applyAction action fun t ht => hp t (by rw [ha, ht])

end Synchrony
end Promptline.Session
