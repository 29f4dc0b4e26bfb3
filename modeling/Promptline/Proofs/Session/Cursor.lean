import Promptline.Proofs.Session.Characters
import Promptline.Proofs.Session.Drawing

set_option autoImplicit false

namespace Promptline.Session

open Display Keys Terminal

/-- The prompt belongs on row `top`: on the row on which `base` has it, or on the first one of the
screen since that was cleared; after a new prompt it may be anywhere. -/
def PlacedAt (start : Screen) (base s : Session) (top : Nat) : Prop :=
  base.editor.promptNumber < s.editor.promptNumber ∨
    base.editor.promptNumber = s.editor.promptNumber ∧
      ∃ new, s.drawn = base.drawn ++ new ∧
        top = if new.any Call.isAbsolute then 0 else (screenOf start base).origin

structure Steady (start : Screen) (size : Size) (s : Session) : Prop where
  size : s.size = size
  within : Within Visible s
  armed : s.editor.presses ≠ none → s.editor.isListening = true
  ground : (screenOf start s).mode = .ground

/-- A session that has been in step with the terminal since `base`. -/
structure Course (setup : Setup) (start : Screen) (size : Size) (base s : Session) : Prop where
  steady : Steady start size s
  inStep : s.editor.isListening = true → InStep setup start s
  placed : PlacedAt start base s (screenOf start s).origin

/-- After the submission of `t` the terminal shows it, and the cursor is at the start of the row below
its end. -/
structure Left (setup : Setup) (start : Screen) (t : Text) (s : Session) : Prop where
  row : (screenOf start s).row = (screenOf start s).origin +
    (((s.context setup).layoutOf t).screen s.size.width).rows + 1
  column : (screenOf start s).column = 0
  displays : Displays setup start s t [.write ['\n'], .flush]

variable {setup : Setup} {start : Screen} {size : Size} {base s s' : Session} {top : Nat}

structure SameDrawing (s s' : Session) : Prop where
  size : s'.size = s.size
  drawn : s'.drawn = s.drawn
  buffer : s'.editor.buffer = s.editor.buffer
  lastCursorRow : s'.editor.lastCursorRow = s.editor.lastCursorRow
  promptNumber : s'.editor.promptNumber = s.editor.promptNumber

theorem SameDrawing.screenOf (h : SameDrawing s s') : screenOf start s' = screenOf start s := by
  rw [Session.screenOf, h.size, h.drawn, Session.screenOf]

theorem SameDrawing.inStep (h : SameDrawing s s') (hs : InStep setup start s) :
    InStep setup start s' := by
  have hplace : cursorPlace setup s' = cursorPlace setup s := by
    rw [cursorPlace, context, h.size, h.buffer, cursorPlace, context]
  refine ⟨?_, ?_, ?_, ?_⟩
  · rw [h.screenOf, hplace]
    exact hs.row
  · rw [h.screenOf, hplace]
    exact hs.column
  · rw [h.lastCursorRow, hplace]
    exact hs.lastCursorRow
  · rw [Displays, h.screenOf, h.size, h.drawn, h.buffer]
    exact hs.displays

theorem Course.keep (h : Course setup start size base s) (hsame : SameDrawing s s')
    (hwithin : Within Visible s')
    (harmed : s'.editor.presses ≠ none → s'.editor.isListening = true)
    (hl : s'.editor.isListening = s.editor.isListening) : Course setup start size base s' := by
  refine ⟨⟨hsame.size.trans h.steady.size, hwithin, harmed, ?_⟩, fun hlistening => ?_, ?_⟩
  · rw [hsame.screenOf]
    exact h.steady.ground
  · exact hsame.inStep (h.inStep (hl.symm.trans hlistening))
  · rw [PlacedAt, hsame.screenOf, hsame.promptNumber, hsame.drawn]
    exact h.placed

theorem PlacedAt.drawn (h : PlacedAt start base s top)
    (hnumber : s'.editor.promptNumber = s.editor.promptNumber)
    (hcalls : ∃ new, s'.drawn = s.drawn ++ new ∧ new.any Call.isAbsolute = false) :
    PlacedAt start base s' top := by
  obtain ⟨more, hmore, hrelative⟩ := hcalls
  unfold PlacedAt
  rw [hnumber]
  refine h.imp_right fun ⟨hsame, new, hnew, htop⟩ => ⟨hsame, new ++ more, ?_, ?_⟩
  · rw [hmore, hnew, List.append_assoc]
  · rw [List.any_append, hrelative, Bool.or_false]
    exact htop

theorem Redrew.promptNumber (h : Redrew s s') :
    s'.editor.promptNumber = s.editor.promptNumber := by
  rw [h.editor]

/-- A redraw puts the terminal and the session in step, if it finds its way back to the prompt. -/
theorem Steady.redraw (h : Steady start size s) (ht : Tidy setup) (hw : 2 ≤ size.columns)
    (hrow : (screenOf start s).row = top + s.editor.lastCursorRow)
    (hplaced : PlacedAt start base s top) (jump : Bool) :
    Ends (redraw setup jump) s (fun _ s' => Course setup start size base s' ∧
      DrawnFrom setup start top jump s s') fun _ => False := by
  have hcolumns : 2 ≤ s.size.columns := by rwa [h.size]
  refine (ends_redraw_drawnFrom ht jump hcolumns h.within.text h.ground hrow).mono ?_ fun _ h => h
  intro _ s' hd
  have hwithin := h.within.keep hd.redrew.text hd.redrew.history
    (congrArg Clipboard.content hd.redrew.clipboard)
  refine ⟨⟨⟨hd.redrew.size.trans h.size, hwithin, ?_, hd.ground⟩, fun _ => hd.inStep, ?_⟩, hd⟩
  · rw [hd.redrew.presses, hd.redrew.isListening]
    exact h.armed
  · rw [hd.origin]
    exact hplaced.drawn hd.redrew.promptNumber hd.calls

/-- Back on the row on which it left the cursor, a session in step finds its prompt. -/
theorem Course.row (h : Course setup start size base s) (hl : s.editor.isListening = true) :
    (screenOf start s).row = (screenOf start s).origin + s.editor.lastCursorRow := by
  have hin := h.inStep hl
  rw [hin.row, hin.lastCursorRow]

theorem Course.redraw (h : Course setup start size base s) (ht : Tidy setup) (hw : 2 ≤ size.columns)
    (hl : s.editor.isListening = true) (e : Editor) (hrow : e.lastCursorRow = s.editor.lastCursorRow)
    (hnumber : e.promptNumber = s.editor.promptNumber)
    (hlistening : e.isListening = s.editor.isListening) (htext : Clean e.buffer.text)
    (hhistory : History.Within Visible e.history) (jump : Bool) :
    Ends (Session.redraw setup jump) { s with editor := e }
      (fun _ s' => Course setup start size base s' ∧
        DrawnFrom setup start (screenOf start s).origin jump { s with editor := e } s')
      fun _ => False := by
  have hsteady : Steady start size { s with editor := e } :=
    ⟨h.steady.size, ⟨htext, hhistory, h.steady.within.clipboard⟩, fun _ => hlistening.trans hl,
      h.steady.ground⟩
  refine hsteady.redraw ht hw ?_ ?_ jump
  · change (screenOf start s).row = _ + e.lastCursorRow
    rw [hrow]
    exact h.row hl
  · unfold PlacedAt
    simp only [hnumber]
    exact h.placed

/-- A prompt is drawn below whatever is on the screen. -/
theorem Steady.showPrompt (h : Steady start size s) (ht : Tidy setup) (hw : 2 ≤ size.columns)
    (hnumber : base.editor.promptNumber ≤ s.editor.promptNumber) (onNewLine : Bool) :
    Ends (showPrompt setup onNewLine) s (fun _ => Course setup start size base) fun _ => False := by
  have hshown {a : Session} (ha : Steady start size a) (hrow : a.editor.lastCursorRow = 0)
      (hnew : base.editor.promptNumber < a.editor.promptNumber) :
      Ends (Session.redraw setup false) a (fun _ b => Course setup start size base
        { b with editor := { b.editor with isListening := true } }) fun _ => False := by
    -- With no row to go back, the prompt is drawn where the cursor is.
    have hstart : (screenOf start a).row = (screenOf start a).row + a.editor.lastCursorRow := by
      rw [hrow, Nat.add_zero]
    refine (ha.redraw ht hw hstart (Or.inl hnew) false).mono (fun _ b hb => ?_) fun _ h => h
    obtain ⟨hcourse, hdrawn⟩ := hb
    have hsame : SameDrawing b { b with editor := { b.editor with isListening := true } } :=
      ⟨rfl, rfl, rfl, rfl, rfl⟩
    have hsteady := hcourse.steady
    exact ⟨⟨hsteady.size, hsteady.within.keep rfl rfl rfl, fun _ => rfl, hsteady.ground⟩,
      fun _ => hsame.inStep hdrawn.inStep, hcourse.placed⟩
  have hcleared : Steady start size { s with
      editor := { s.editor.cleared with promptNumber := s.editor.promptNumber + 1 } } :=
    ⟨h.size, ⟨List.forall_mem_nil _, h.within.history, h.within.clipboard⟩, h.armed, h.ground⟩
  simp only [Session.showPrompt, ends_bind, ends_modifyEditor]
  split
  · simp only [ends_bind, ends_modifyEditor]
    refine ends_draw_ok ht.quiet _ (hshown ⟨h.size, ⟨List.forall_mem_nil _, h.within.history, h.within.clipboard⟩,
      h.armed, ?_⟩ rfl (Nat.lt_succ_of_le hnumber))
    rw [screenOf, Screen.play_append]
    change (Display.run (screenOf start s).mode ['\n']).1 = .ground
    rw [h.ground]
    rfl
  · simp only [ends_bind, ends_modifyEditor]
    exact hshown hcleared rfl (Nat.lt_succ_of_le hnumber)

theorem PlacedAt.number_le (h : PlacedAt start base s top) :
    base.editor.promptNumber ≤ s.editor.promptNumber := by
  rcases h with h | ⟨h, -⟩
  · exact Nat.le_of_lt h
  · exact Nat.le_of_eq h

theorem Course.clearScreen (h : Course setup start size base s) (ht : Tidy setup)
    (hw : 2 ≤ size.columns) :
    Ends (clearScreen setup) s (fun _ => Course setup start size base) fun _ => False := by
  simp only [Session.clearScreen, ends_bind, ends_modifyEditor]
  refine ends_drawAll_ok ht.quiet _ ?_
  have hcleared (calls : Nat) : Steady start size { s with
      editor := { s.editor with lastCursorRow := 0 }
      calls
      drawn := s.drawn ++ [.cursorTo 0 (some 0), .clearToEnd] } := by
    refine ⟨h.steady.size, h.steady.within.keep rfl rfl rfl, h.steady.armed, ?_⟩
    rw [screenOf, Screen.play_append]
    exact h.steady.ground
  have htop (calls : Nat) : (screenOf start { s with
      editor := { s.editor with lastCursorRow := 0 }
      calls
      drawn := s.drawn ++ [.cursorTo 0 (some 0), .clearToEnd] }).row = 0 + 0 := by
    rw [screenOf, Screen.play_append]
    rfl
  refine ((hcleared _).redraw ht hw (htop _) ?_ false).mono (fun _ _ hc => hc.1) fun _ h => h
  · refine h.placed.imp_right ?_
    rintro ⟨hsame, new, hnew, -⟩
    refine ⟨hsame, new ++ [.cursorTo 0 (some 0), .clearToEnd], ?_, ?_⟩
    · rw [hnew, List.append_assoc]
    · rw [List.any_append]
      simp [Call.isAbsolute]

theorem Course.recordSubmission (h : Course setup start size base s) (ht : Tidy setup)
    (hw : 2 ≤ size.columns) (hl : s.editor.isListening = true) :
    Ends (recordSubmission setup) s (fun _ q => Steady start size q ∧
      PlacedAt start base q (screenOf start q).origin ∧ q.editor.presses = s.editor.presses ∧
      Left setup start s.editor.buffer.text q) fun _ => False := by
  simp only [Session.recordSubmission, ends_bind, ends_get, ends_modifyEditor, ends_note]
  have hnoted (n : Log.Notice) :
      Course setup start size base { s with notices := s.notices ++ [n] } :=
    h.keep ⟨rfl, rfl, rfl, rfl, rfl⟩ (h.steady.within.keep rfl rfl rfl) h.steady.armed rfl
  have hhistory := h.steady.within.history.commit h.steady.within.text
  refine ((hnoted _).redraw ht hw hl
    { s.editor with history := s.editor.history.commit s.editor.buffer.text } rfl rfl rfl
    h.steady.within.text hhistory true).mono (fun _ a ha => ?_) fun _ h => h
  obtain ⟨hcourse, hdrawn⟩ := ha
  refine ends_drawAll_ok ht.quiet _ ?_
  have hscreen (calls : Nat) (notices : List Log.Notice) : screenOf start { a with
      calls, drawn := a.drawn ++ [.write ['\n'], .flush], notices } =
      { screenOf start a with row := (screenOf start a).row + 1, column := 0 } := by
    rw [screenOf, Screen.play_append]
    exact Screen.play_lineFeed hdrawn.ground _
  have htext : a.editor.buffer.text = s.editor.buffer.text := hdrawn.redrew.text
  have hplace : cursorPlace setup a =
      ((a.context setup).layoutOf s.editor.buffer.text).screen a.size.width := by
    rw [cursorPlace, Buffer.cursorLayout, ← htext, Buffer.text, hdrawn.atEnd rfl, List.append_nil]
  obtain ⟨before, b, jump, last, shown, hb, hcalls, hrun, hpresents, hcells⟩ := hdrawn.inStep.displays
  refine ⟨⟨hcourse.steady.size, hcourse.steady.within.keep rfl rfl rfl, hcourse.steady.armed, ?_⟩,
    ?_, hdrawn.redrew.presses, ?_, ?_, ?_⟩
  · rw [hscreen]
    exact hdrawn.ground
  · rw [hscreen]
    exact hcourse.placed.drawn rfl ⟨_, rfl, rfl⟩
  · have hrow := hdrawn.inStep.row
    rw [hplace] at hrow
    rw [hscreen]
    exact congrArg (· + 1) hrow
  · rw [hscreen]
  · rw [htext] at hb hpresents
    refine ⟨before, b, jump, last, shown, hb, ?_, hrun, hpresents, ?_⟩
    · rw [List.append_nil] at hcalls
      exact congrArg (· ++ [.write ['\n'], .flush]) hcalls
    · rw [hscreen]
      exact hcells

theorem Course.submit (h : Course setup start size base s) (ht : Tidy setup)
    (hw : 2 ≤ size.columns) (hl : s.editor.isListening = true) (hp : s.editor.presses = none) :
    Ends (submit setup) s (fun e s' => Course setup start size base s' ∧
      ∀ t, e = .command t → Left setup start t s') fun _ => False := by
  simp only [Session.submit, ends_bind, ends_get]
  refine (h.recordSubmission ht hw hl).mono (fun _ q hq => ?_) fun _ h => h
  obtain ⟨hsteady, hplaced, hpresses, hleft⟩ := hq
  simp only [handOver, ends_bind, ends_modifyEditor, ends_publish, ends_pure]
  refine ⟨⟨⟨hsteady.size, ⟨List.forall_mem_nil _, hsteady.within.history, hsteady.within.clipboard⟩, ?_,
    hsteady.ground⟩, by simp, hplaced⟩, ?_⟩
  · intro hpressed
    exact absurd (hpresses.trans hp) hpressed
  · intro t ht
    cases ht
    exact ⟨hleft.row, hleft.column, hleft.displays⟩

def Answers (setup : Setup) (start : Screen) (size : Size) (base : Session) (e : Event)
    (s : Session) : Prop :=
  Course setup start size base s ∧ ∀ t, e = .command t → Left setup start t s

theorem course_invariant (ht : Tidy setup) (hw : 2 ≤ size.columns) (start : Screen)
    (base : Session) : Invariant setup Clean (Course setup start size base)
      (Answers setup start size base) where
  lineFeed := fun c hc => Or.inl (List.mem_singleton.mp hc)
  pasted h := h.steady.within.clipboard
  armed h := h.steady.armed
  noted _ h :=
    h.keep ⟨rfl, rfl, rfl, rfl, rfl⟩ (h.steady.within.keep rfl rfl rfl) h.steady.armed rfl
  passed _ _ h :=
    h.keep ⟨rfl, rfl, rfl, rfl, rfl⟩ (h.steady.within.keep rfl rfl rfl) h.steady.armed rfl
  pressed _ h hl :=
    h.keep ⟨rfl, rfl, rfl, rfl, rfl⟩ (h.steady.within.keep rfl rfl rfl) (fun _ => hl) rfl
  copied {s t} h hsub := by
    have hcopied : Only Visible t := Only.subset h.steady.within.text hsub
    exact h.keep ⟨rfl, rfl, rfl, rfl, rfl⟩ ⟨h.steady.within.text, h.steady.within.history,
      hcopied.normalizeNewlines (Or.inl rfl)⟩ h.steady.armed rfl
  synced h _ := h.keep ⟨rfl, rfl, rfl, rfl, rfl⟩ ⟨h.steady.within.text,
    h.steady.within.history.sync h.steady.within.text, h.steady.within.clipboard⟩ h.steady.armed rfl
  redrawn {s b} jump h hl htext := by
    have hclean : Clean b.text := by
      rw [htext]
      exact h.steady.within.text
    exact (h.redraw ht hw hl { s.editor with buffer := b } rfl rfl rfl hclean
      h.steady.within.history jump).mono (fun _ _ hr => hr.1) fun _ => False.elim
  edited {s b} h hl hb := by
    have hclean : Clean b.text := hb.only h.steady.within.text (Or.inl rfl) ht.indentUnit
    rw [afterTextChange, ends_bind, ends_modifyEditor]
    exact (h.redraw ht hw hl (s.withBuffer b).followed.editor rfl rfl rfl hclean
      (h.steady.within.history.sync hclean) false).mono (fun _ _ hr => hr.1) fun _ => False.elim
  browsed {s slot} h hl hslot := by
    have hhistory : History.Within Visible slot := by
      rcases hslot with hslot | hslot
      · exact h.steady.within.history.prev hslot
      · exact h.steady.within.history.next hslot
    have hclean : Clean (s.editor.buffer.setText (slot.shown?.getD [])).text := by
      rw [Buffer.setText, Buffer.text, List.append_nil]
      exact hhistory.shown
    exact (h.redraw ht hw hl (s.browsed slot).editor rfl rfl rfl hclean hhistory true).mono
      (fun _ _ hr => hr.1) fun _ => False.elim
  cleared h _ := (h.clearScreen ht hw).mono (fun _ _ hc => hc) fun _ => False.elim
  submitted h hl hp _ := (h.submit ht hw hl hp).mono (fun _ _ hs => hs) fun _ => False.elim
  prompted h := (h.steady.showPrompt ht hw h.placed.number_le true).mono (fun _ _ hs => hs)
    fun _ => False.elim
  closed h := by
    simp only [close, ends_bind, ends_get, ends_modifyEditor, ends_note, ends_publish, ends_pure]
    exact ⟨h.keep ⟨rfl, rfl, rfl, rfl, rfl⟩ (h.steady.within.keep rfl rfl rfl) h.steady.armed rfl,
      (by simp)⟩

/-- Requests that leave the drawing to the session: what is typed or pasted has no control
characters, the terminal keeps its size, and something else is printed only while no prompt is
shown. -/
def Permitted (s : Session) : Request → Prop
  | .key p => TypesOnly Clean p
  | .readline => ∀ k ∈ s.feed.keys, TypesOnly Clean k.2
  | .print t => s.editor.isListening = false ∧ (Display.run .ground t).1 = .ground
  | .setClipboard t => Clean (Text.normalizeNewlines t)
  | .resize _ => False
  | .prompt | .subscribe | .unsubscribe _ | .wait _ | .setAvailable _ => True

inductive Undisturbed (setup : Setup) (size : Size) : Session → Prop
  | created {clipboard : Text} {keys : List (Nat × KeyPress)} {s : Session} :
      Clean (Text.normalizeNewlines clipboard) → create setup size clipboard keys = .ok s →
      Undisturbed setup size s
  | requested {s : Session} (r : Request) : Undisturbed setup size s → Permitted s r →
      Undisturbed setup size (step setup r s).2
  | expired {s : Session} : Undisturbed setup size s →
      Undisturbed setup size (ending (settle setup) s)

theorem typesOnly_typing {t : Text} (ht : Clean t) : ∀ p ∈ KeyPress.typing t, TypesOnly Clean p := by
  intro p hp
  obtain ⟨c, hc, rfl⟩ := List.mem_map.mp hp
  split
  · intro u hu
    cases hu
  · intro u hu
    cases hu
    exact Only.normalizeNewlines (List.forall_mem_singleton.mpr (ht c hc)) (Or.inl rfl)

theorem Undisturbed.keys (h : Undisturbed setup size s) {ps : List KeyPress}
    (hps : ∀ p ∈ ps, TypesOnly Clean p) : Undisturbed setup size (run setup (ps.map .key) s).2 := by
  induction ps generalizing s with
  | nil => exact h
  | cons p rest ih =>
    obtain ⟨hp, hrest⟩ := List.forall_mem_cons.mp hps
    exact ih (h.requested (.key p) hp) hrest

theorem PlacedAt.refl (start : Screen) (s : Session) :
    PlacedAt start s s (screenOf start s).origin :=
  Or.inr ⟨rfl, [], (List.append_nil _).symm, rfl⟩

theorem Course.rebase (h : Course setup start size base s) : Course setup start size s s :=
  ⟨h.steady, h.inStep, PlacedAt.refl start s⟩

theorem Course.print (h : Course setup start size base s) (ht : Tidy setup) {t : Text}
    (hl : s.editor.isListening = false) (hground : (Display.run .ground t).1 = .ground) :
    Ends (print setup t) s (fun _ => Course setup start size base) fun _ => False := by
  refine ends_drawAll_ok ht.quiet _ ?_
  have hscreen (calls : Nat) : screenOf start { s with
      calls, drawn := s.drawn ++ [.write t, .flush] } = (screenOf start s).write s.size.width t := by
    rw [screenOf, Screen.play_append]
    rfl
  refine ⟨⟨h.steady.size, h.steady.within.keep rfl rfl rfl, h.steady.armed, ?_⟩,
    fun hlistening => ?_, ?_⟩
  · rw [hscreen, Screen.write, h.steady.ground]
    exact hground
  · exact absurd (hl.symm.trans hlistening) (by simp)
  · have horigin : ((screenOf start s).write s.size.width t).origin = (screenOf start s).origin :=
      Screen.foldl_put_origin _ _ _
    rw [hscreen, horigin]
    exact h.placed.drawn rfl ⟨_, rfl, rfl⟩

theorem Course.perform (h : Course setup start size base s) (ht : Tidy setup)
    (hw : 2 ≤ size.columns) {r : Request} (hr : Permitted s r) :
    Ends (perform setup r) s (Answered (Course setup start size base)
      (Answers setup start size base)) (Course setup start size base) := by
  have hinv := course_invariant ht hw start base
  have hkeep (s' : Session) (hsame : SameDrawing s s') (hwithin : Within Visible s')
      (heditor : s'.editor = s.editor) : Course setup start size base s' :=
    h.keep hsame hwithin (by rw [heditor]; exact h.steady.armed) (by rw [heditor])
  have hwithin := h.steady.within
  cases r with
  | key p => exact hinv.handleKey h hr
  | readline => exact (ends_map _ _ _).mpr (hinv.readline hr h)
  | prompt => exact (ends_seqRight _ _ _).mpr (hinv.prompted h)
  | print t =>
    refine (ends_seqRight _ _ _).mpr ((h.print ht hr.1 hr.2).mono (fun _ _ hp => hp) ?_)
    exact fun _ => False.elim
  | resize size => exact hr.elim
  | setClipboard t =>
    exact (ends_seqRight _ _ _).mpr (hkeep _ ⟨rfl, rfl, rfl, rfl, rfl⟩
      ⟨hwithin.text, hwithin.history, hr⟩ rfl)
  | _ =>
    exact (ends_seqRight _ _ _).mpr (hkeep _ ⟨rfl, rfl, rfl, rfl, rfl⟩
      (hwithin.keep rfl rfl rfl) rfl)

theorem Course.step (h : Course setup start size base s) (ht : Tidy setup) (hw : 2 ≤ size.columns)
    {r : Request} (hr : Permitted s r) :
    Course setup start size base (step setup r s).2 ∧
      ∀ t, (step setup r s).1 = .event (.command t) → Left setup start t (step setup r s).2 := by
  have hreplied := (h.perform ht hw hr).step
  rcases hstep : Session.step setup r s with ⟨reply, s'⟩
  rw [hstep] at hreplied
  cases reply with
  | done => exact ⟨hreplied, by simp⟩
  | event e => exact ⟨hreplied.1, fun t ht => hreplied.2 t (Reply.event.inj ht)⟩
  | failed e => exact ⟨hreplied, by simp⟩

theorem Course.settle (h : Course setup start size base s) (ht : Tidy setup)
    (hw : 2 ≤ size.columns) : Course setup start size base (ending (settle setup) s) := by
  have hinv := course_invariant ht hw start base
  exact Ends.ending ((hinv.settle h).mono (fun _ _ hs => hs.1) fun _ hs => hs)

theorem course_of_create (ht : Tidy setup) (hw : 2 ≤ size.columns) (hstart : start.mode = .ground)
    {clipboard : Text} {keys : List (Nat × KeyPress)} (hc : Clean (Text.normalizeNewlines clipboard))
    (h : create setup size clipboard keys = .ok s) : Course setup start size s s := by
  let first := initial setup size clipboard keys
  have hsteady : Steady start size first :=
    ⟨rfl, within_initial setup size keys hc, fun hpressed => absurd rfl hpressed, hstart⟩
  have hnumber : first.editor.promptNumber ≤ first.editor.promptNumber := Nat.le_refl _
  exact ((hsteady.showPrompt ht hw hnumber false).created h).rebase

theorem Undisturbed.course (h : Undisturbed setup size s) (ht : Tidy setup) (hw : 2 ≤ size.columns)
    (hstart : start.mode = .ground) : Course setup start size s s := by
  induction h with
  | created hc hs => exact course_of_create ht hw hstart hc hs
  | requested r _ hr ih => exact (ih.step ht hw hr).1.rebase
  | expired _ ih => exact (ih.settle ht hw).rebase

/-- Whenever a session listens, the terminal shows its text from the row of the prompt on, and the
terminal cursor is where the cursor of the text is. The prompt stays on its row until the screen is
cleared or a new prompt is shown, and a submission moves on to the row below the text. -/
theorem undisturbed_inStep (ht : Tidy setup) (hw : 2 ≤ size.columns) (hstart : start.mode = .ground)
    (h : Undisturbed setup size s) :
    (s.editor.isListening = true → InStep setup start s) ∧
      (∀ r, Permitted s r →
        PlacedAt start s (step setup r s).2 (screenOf start (step setup r s).2).origin ∧
        ∀ t, (step setup r s).1 = .event (.command t) → Left setup start t (step setup r s).2) ∧
      PlacedAt start s (ending (settle setup) s) (screenOf start (ending (settle setup) s)).origin := by
  have hcourse := h.course ht hw hstart
  refine ⟨hcourse.inStep, fun r hr => ?_, (hcourse.settle ht hw).placed⟩
  have hstep := hcourse.step ht hw hr
  exact ⟨hstep.1.placed, hstep.2⟩

def Setup.bold : Setup := ⟨Config.standard, Presenter.bold, fun _ => false⟩

theorem tidy_bold : Tidy Setup.bold where
  quiet _ := rfl
  first := by decide
  continuation := by decide
  indentUnit := by decide
  presenter := faithful_bold

/-- A link that begins before each line and has a line feed in its escape sequence. -/
def Setup.linked : Setup :=
  ⟨Config.standard, Presenter.enclosed "\x1b]8;;\n\x07".toList [], fun _ => false⟩

/-- Whole escape sequences are not enough: the cut of a text that is taller than the screen goes through
one that has a line feed in it, and the terminal takes the beginning of the next redraw for the rest
of the sequence. -/
theorem linked_outOfStep :
    (∀ l, Printable l → Display.run .ground (Setup.linked.presenter l) = (.ground, l)) ∧
    ∃ s, Undisturbed Setup.linked ⟨4, 2⟩ s ∧ s.editor.isListening = true ∧
      (screenOf Screen.blank s).origin = 0 ∧ (screenOf Screen.blank s).row = 1 ∧
      (cursorPlace Setup.linked s).rows = 2 ∧ s.editor.lastCursorRow = 2 ∧
      ¬ InStep Setup.linked Screen.blank s := by
  refine ⟨fun l hl => ?_, ?_⟩
  · have hlink : Display.run .ground "\x1b]8;;\n\x07".toList = (.ground, []) := rfl
    simpa [Setup.linked, Presenter.enclosed] using run_ground_append hlink hl.run
  let keys := KeyPress.typing "abc".toList ++ .ofCtrl 'n' :: KeyPress.typing "d".toList
  have hrun : (create Setup.linked ⟨4, 2⟩ [] []).toOption.map (fun s =>
      let last := (run Setup.linked (keys.map .key) s).2
      (last.editor.isListening, (screenOf Screen.blank last).origin, (screenOf Screen.blank last).row,
        (cursorPlace Setup.linked last).rows, last.editor.lastCursorRow)) =
        some (true, 0, 1, 2, 2) := by
    decide +kernel
  obtain ⟨s, hs, hrun⟩ := Option.map_eq_some_iff.mp hrun
  simp only [Prod.mk.injEq] at hrun
  obtain ⟨hlistening, horigin, hrow, hplace, hlast⟩ := hrun
  have hempty : Clean (Text.normalizeNewlines []) := by decide
  have htyped : ∀ p ∈ keys, TypesOnly Clean p := by
    have habc : Clean "abc".toList := by decide
    have hd : Clean "d".toList := by decide
    refine List.forall_mem_append.mpr
      ⟨typesOnly_typing habc, List.forall_mem_cons.mpr ⟨?_, typesOnly_typing hd⟩⟩
    intro u hu
    cases hu
  refine ⟨_, (Undisturbed.created hempty (created_of_toOption hs)).keys htyped, hlistening, horigin,
    hrow, hplace, hlast, fun hin => ?_⟩
  have hsame := hin.row
  rw [hrow, horigin, hplace] at hsame
  exact absurd hsame (by decide)

/-- A text that ends at the right edge has its cursor at the start of the row below. -/
theorem full_row_inStep : ∃ s, Undisturbed Setup.bold ⟨5, 4⟩ s ∧
    InStep Setup.bold Screen.blank s ∧ cursorPlace Setup.bold s = ⟨0, 1⟩ ∧
    (step Setup.bold (.key (.ofName .enter)) s).1 = .event (.command "abc".toList) ∧
    Left Setup.bold Screen.blank "abc".toList (step Setup.bold (.key (.ofName .enter)) s).2 := by
  let typed := KeyPress.typing "abc".toList
  have hrun : (create Setup.bold ⟨5, 4⟩ [] []).toOption.map (fun s =>
      let full := (run Setup.bold (typed.map .key) s).2
      (full.editor.isListening, cursorPlace Setup.bold full,
        (step Setup.bold (.key (.ofName .enter)) full).1)) =
        some (true, ⟨0, 1⟩, .event (.command "abc".toList)) := by
    decide +kernel
  obtain ⟨s, hs, hrun⟩ := Option.map_eq_some_iff.mp hrun
  simp only [Prod.mk.injEq] at hrun
  obtain ⟨hlistening, hplace, hreply⟩ := hrun
  have hempty : Clean (Text.normalizeNewlines []) := by decide
  have hclean : Clean "abc".toList := by decide
  have hfull := (Undisturbed.created hempty (created_of_toOption hs)).keys (typesOnly_typing hclean)
  have hground : Screen.blank.mode = .ground := rfl
  have hin := undisturbed_inStep tidy_bold (by decide) hground hfull
  have henter : Permitted (run Setup.bold (typed.map .key) s).2 (.key (.ofName .enter)) := by
    intro u hu
    cases hu
  exact ⟨_, hfull, hin.1 hlistening, hplace, hreply, (hin.2.1 _ henter).2 _ hreply⟩

end Promptline.Session
