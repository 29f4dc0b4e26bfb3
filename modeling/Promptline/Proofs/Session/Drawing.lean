import Promptline.Proofs.Display.Shown
import Promptline.Proofs.Session.Outcome
import Promptline.Proofs.Terminal.Screen

set_option autoImplicit false

namespace Promptline

open Display

namespace Terminal

def Call.isAbsolute : Call → Bool
  | .cursorTo _ (some _) => true
  | _ => false

end Terminal

namespace Session

open Terminal

/-- Prompts, indentation and styling without control characters, and calls that never fail. -/
structure Tidy (setup : Setup) : Prop where
  quiet : ∀ n, setup.fails n = false
  first : Printable setup.config.prompts.first
  continuation : Printable setup.config.prompts.continuation
  indentUnit : Clean setup.config.indentUnit
  presenter : Faithful setup.presenter

variable {setup : Setup} {s : Session}

theorem draw_ok (hquiet : ∀ n, setup.fails n = false) (c : Call) (s : Session) :
    draw setup c s = .ok () { s with calls := s.calls + 1, drawn := s.drawn ++ [c] } := by
  simp [draw, hquiet]

theorem drawAll_ok (hquiet : ∀ n, setup.fails n = false) (cs : List Call) (s : Session) :
    drawAll setup cs s = .ok () { s with calls := s.calls + cs.length, drawn := s.drawn ++ cs } := by
  induction cs generalizing s with
  | nil =>
    simp only [drawAll, List.length_nil, Nat.add_zero, List.append_nil]
    rfl
  | cons c cs ih =>
    simp only [drawAll, bind, EStateM.bind, draw_ok hquiet, ih, List.length_cons,
      List.append_assoc, List.singleton_append]
    congr 2
    omega

theorem ends_draw_ok (hquiet : ∀ n, setup.fails n = false) (c : Call)
    {Q : Unit → Session → Prop} {E : Session → Prop}
    (h : Q () { s with calls := s.calls + 1, drawn := s.drawn ++ [c] }) :
    Ends (draw setup c) s Q E :=
  ends_of_ok (draw_ok hquiet c s) h

theorem ends_drawAll_ok (hquiet : ∀ n, setup.fails n = false) (cs : List Call)
    {Q : Unit → Session → Prop} {E : Session → Prop}
    (h : Q () { s with calls := s.calls + cs.length, drawn := s.drawn ++ cs }) :
    Ends (drawAll setup cs) s Q E :=
  ends_of_ok (drawAll_ok hquiet cs s) h

def placed (setup : Setup) (jump : Bool) (s : Session) : Buffer :=
  (if jump then s.editor.buffer.moveToEnd else s.editor.buffer).updateScreenRow (s.context setup)

theorem placed_text (setup : Setup) (jump : Bool) (s : Session) :
    (placed setup jump s).text = s.editor.buffer.text := by
  unfold placed
  split
  · exact Buffer.moveToEnd_text _
  · rfl

/-- A redraw has placed the cursor before it makes its first call. -/
theorem ends_redraw_placed (jump : Bool) :
    Ends (redraw setup jump) s (fun _ s' => s'.editor.buffer = placed setup jump s)
      fun s' => s'.editor.buffer = placed setup jump s := by
  have hdrew {a b : Session} (h : Drew a b) : b.editor = a.editor := by
    unfold Drew at h
    rw [h]
  simp only [redraw, ends_bind, ends_get, ends_modifyEditor]
  refine (ends_drawAll setup _).mono (fun _ a ha => ?_) fun _ ha => by rw [hdrew ha]; rfl
  have hplaced : a.editor.buffer = placed setup jump s := by
    rw [hdrew ha]
    rfl
  exact (ends_drawAll setup _).imp fun hb => by rw [hdrew hb]; exact hplaced

def viewOf (setup : Setup) (jump : Bool) (s : Session) : View :=
  View.ofBuffer setup s.size jump s.editor.lastDisplayRow (placed setup jump s)

theorem ends_redraw_ok (hquiet : ∀ n, setup.fails n = false) (jump : Bool)
    {Q : Unit → Session → Prop} {E : Session → Prop}
    (h : ∀ calls, Q () { s with
      editor := { s.editor with
        buffer := placed setup jump s
        lastDisplayRow := (viewOf setup jump s).lastRow
        lastCursorRow := (viewOf setup jump s).cursor.rows }
      calls
      drawn := s.drawn ++ returnCalls s.editor.lastCursorRow ++
        (viewOf setup jump s).calls s.size.width }) :
    Ends (redraw setup jump) s Q E := by
  simp only [redraw, ends_bind, ends_get, ends_modifyEditor]
  refine ends_drawAll_ok hquiet _ ?_
  refine ends_drawAll_ok hquiet _ ?_
  exact h _

theorem ends_redraw_quiet (hquiet : ∀ n, setup.fails n = false) (jump : Bool) :
    Ends (redraw setup jump) s (fun _ => Redrew s) fun _ => False :=
  ends_redraw_ok hquiet jump fun _ => ⟨placed_text setup jump s, rfl, rfl⟩

theorem isAbsolute_redraw (v : View) (width n : Nat) :
    (returnCalls n ++ v.calls width).any Call.isAbsolute = false := by
  rw [List.any_append, Bool.or_eq_false_iff]
  constructor
  · unfold returnCalls
    split <;> rfl
  · unfold View.calls
    dsimp only
    split <;> split <;> rfl

theorem screen_columns_lt {width : Nat} (hw : 0 < width) (l : Layout) :
    (l.screen width).columns < width := by
  unfold Layout.screen
  split
  · exact hw
  · rename_i hpending
    simp only [Layout.isPending, decide_eq_true_eq] at hpending
    omega

/-- From row `top` on the terminal shows a text without escape sequences. -/
structure Shows (width top : Nat) (shown : Text) (screen : Screen) : Prop where
  ground : screen.mode = .ground
  origin : screen.origin = top
  cells : ∀ i j, screen.cells (top + i) j = (Screen.picture width shown).cells i j

theorem play_returnCalls {screen : Screen} {top n : Nat} (hrow : screen.row = top + n)
    (width : Nat) : (screen.play width (returnCalls n)).row = top ∧
      (screen.play width (returnCalls n)).mode = screen.mode := by
  unfold returnCalls
  split
  · rename_i hn
    rw [hn, Nat.add_zero] at hrow
    exact ⟨hrow, rfl⟩
  · refine ⟨?_, rfl⟩
    change ((screen.row : Int) + -(n : Int)).toNat = top
    omega

theorem below_of_clear {screen : Screen} {width top : Nat} (hrow : screen.row = top) :
    Screen.Below top Screen.blank (screen.play width [.cursorTo 0 none, .clearToEnd]) := by
  refine ⟨hrow, Nat.zero_min _, fun i j => if_pos ?_⟩
  change screen.row < top + i ∨ top + i = screen.row ∧ min (min 0 (width - 1)) (width - 1) ≤ j
  omega

theorem layout_shown {width : Nat} (hw : 2 ≤ width) {display shown : Text}
    (hshown : Display.run .ground display = (.ground, shown)) : layout width display =
      ⟨(Screen.picture width shown).column, (Screen.picture width shown).row⟩ := by
  have hmax : max width 1 = width := by omega
  rw [layout, strip, hshown, hmax]
  exact Screen.picture_layout fun c _ => Nat.le_trans (Screen.charWidth_le_two c) hw

theorem below_write (width : Nat) {screen : Screen} {top : Nat} {display shown : Text}
    (hcleared : Screen.Below top Screen.blank screen) (hground : screen.mode = .ground)
    (hshown : Display.run .ground display = (.ground, shown)) :
    Screen.Below top (Screen.picture width shown) (screen.write width display) ∧
      (screen.write width display).mode = .ground ∧
      (screen.write width display).origin = screen.origin := by
  have hfold := hcleared.foldl width shown
  rw [Screen.write, hground, hshown]
  exact ⟨⟨hfold.row, hfold.column, hfold.cells⟩, rfl, Screen.foldl_put_origin width screen shown⟩

/-- Writing a display, with the blank behind it that a full row needs. -/
theorem play_write {screen : Screen} {width top : Nat} (hw : 2 ≤ width) {display shown : Text}
    (hcleared : Screen.Below top Screen.blank screen) (hground : screen.mode = .ground)
    (horigin : screen.origin = top) (hshown : Display.run .ground display = (.ground, shown)) :
    let written := layout width display
    let after := screen.play width
      (.write display :: if written.isPending width then [.write [' ']] else [])
    Shows width top shown after ∧ after.row = top + (written.screen width).rows := by
  have hlayout := layout_shown hw hshown
  obtain ⟨hpicture, hmode, hkept⟩ := below_write width hcleared hground hshown
  have hshows : Shows width top shown (screen.write width display) :=
    ⟨hmode, hkept.trans horigin, hpicture.cells⟩
  intro written after
  by_cases hpending : written.isPending width
  -- The terminal is still on the full row that the layout counts as left; the blank makes it leave.
  · have hfull : width ≤ (screen.write width display).column := by
      simp only [written, hlayout, Layout.isPending, decide_eq_true_eq] at hpending
      rw [hpicture.column]
      omega
    have hput := Screen.put_blank_of_full (hpicture.fresh (Screen.picture_fresh width shown)) hfull
    have hafter : after = { screen.write width display with
        row := (screen.write width display).row + 1, column := 1 } := by
      simp only [after, if_pos hpending]
      change (screen.write width display).write width [' '] = _
      rw [Screen.write, hshows.ground]
      change { (screen.write width display).put width ' ' with mode := .ground } = _
      rw [hput]
    rw [hafter]
    refine ⟨⟨hshows.ground, hshows.origin, hshows.cells⟩, ?_⟩
    rw [Layout.screen, if_pos hpending, hpicture.row]
    simp only [written, hlayout]
    omega
  · have hafter : after = screen.write width display := by
      simp only [after, if_neg hpending]
      rfl
    rw [hafter]
    refine ⟨hshows, ?_⟩
    rw [Layout.screen, if_neg hpending, hpicture.row]
    simp only [written, hlayout]

theorem play_calls {screen : Screen} {width top : Nat} (hw : 2 ≤ width) {v : View} {shown : Text}
    (hrow : screen.row = top) (hground : screen.mode = .ground)
    (hshown : Display.run .ground v.display = (.ground, shown)) (hcolumn : v.cursor.columns < width) :
    Shows width top shown (screen.play width (v.calls width)) ∧
      (screen.play width (v.calls width)).row = top + v.cursor.rows ∧
      (screen.play width (v.calls width)).column = v.cursor.columns := by
  let cleared := screen.play width [.cursorTo 0 none, .clearToEnd]
  have hcleared : Screen.Below top Screen.blank cleared := below_of_clear hrow
  obtain ⟨hshows, hend⟩ := play_write hw hcleared hground hrow hshown
  let written := layout width v.display
  let after := cleared.play width
    (.write v.display :: if written.isPending width then [.write [' ']] else [])
  let down : Int := v.cursor.rows - (written.screen width).rows
  have hcalls : screen.play width (v.calls width) = (after.play width
      ([.cursorTo v.cursor.columns none] ++ (if down = 0 then [] else [.moveCursor 0 down]) ++
        [.flush])) := by
    simp only [View.calls, after, cleared, ← Screen.play_append, written, down]
    simp
  have hplaced : min v.cursor.columns (width - 1) = v.cursor.columns := by omega
  have hrows : (down : Int) = v.cursor.rows - (written.screen width).rows := rfl
  have hafter : after.row = top + (written.screen width).rows := hend
  rw [hcalls]
  by_cases hdown : down = 0
  · rw [if_pos hdown]
    refine ⟨⟨hshows.ground, hshows.origin, hshows.cells⟩, ?_, hplaced⟩
    change after.row = _
    omega
  · rw [if_neg hdown]
    refine ⟨⟨hshows.ground, hshows.origin, hshows.cells⟩, ?_, ?_⟩
    · change ((after.row : Int) + down).toNat = _
      omega
    · change min ((min (min v.cursor.columns (width - 1)) (width - 1) : Nat) + (0 : Int)).toNat
        (width - 1) = _
      omega

/-- A display shows the first lines of the text with their prompts, all of them where they fit. -/
def Presents (setup : Setup) (size : Size) (t shown : Text) : Prop :=
  ∃ k, 0 < k ∧ shown = setup.config.prompts.showLines id ((Text.lines t).take k) ∧
    (((Context.layoutOf ⟨setup.config.prompts, size.width⟩ t).screen size.width).rows < size.height →
      k = (Text.lines t).length)

theorem View.display_shown (ht : Tidy setup) {b : Buffer} (hb : Clean b.text) (size : Size)
    (jump : Bool) (last : Nat) :
    ∃ shown, Display.run .ground (View.ofBuffer setup size jump last b).display = (.ground, shown) ∧
      Presents setup size b.text shown := by
  have hlines := hb.lines
  have hshown (k : Nat) := run_showLines ht.presenter ht.first ht.continuation
    (fun l hl => hlines l (List.mem_of_mem_take (i := k) hl))
  unfold View.ofBuffer
  dsimp only
  split
  · rename_i hclipped
    obtain ⟨k, hk⟩ := linesBefore_showLines ht.presenter ht.first ht.continuation hlines
      (Text.lines_ne_nil b.text) (lastRowFor jump size.height
        ((b.textLayout ⟨setup.config.prompts, size.width⟩).screen size.width).rows
        ((b.cursorLayout ⟨setup.config.prompts, size.width⟩).screen size.width).rows last) size.width
    refine ⟨_, ?_, k + 1, Nat.succ_pos k, rfl, fun hfits => absurd hfits (Nat.not_lt.mpr hclipped)⟩
    rw [styledText, hk]
    exact hshown (k + 1)
  · have hpos := List.length_pos_iff.mpr (Text.lines_ne_nil b.text)
    refine ⟨_, ?_, (Text.lines b.text).length, hpos, rfl, fun _ => rfl⟩
    have hall := hshown (Text.lines b.text).length
    rw [List.take_length] at hall ⊢
    exact hall

def screenOf (start : Screen) (s : Session) : Screen := start.play s.size.width s.drawn

/-- Where the cursor of the text belongs, counted from the row of the prompt. -/
def cursorPlace (setup : Setup) (s : Session) : Layout :=
  (s.editor.buffer.cursorLayout (s.context setup)).screen s.size.width

/-- The last drawing but for the calls `tail` was one of the text `t`, and from the row on which it
began the terminal shows it and nothing else. -/
def Displays (setup : Setup) (start : Screen) (s : Session) (t : Text) (tail : List Call) : Prop :=
  ∃ before b jump last shown, b.text = t ∧
    s.drawn = before ++ (View.ofBuffer setup s.size jump last b).calls s.size.width ++ tail ∧
    Display.run .ground (View.ofBuffer setup s.size jump last b).display = (.ground, shown) ∧
    Presents setup s.size t shown ∧
    ∀ i j, (screenOf start s).cells ((screenOf start s).origin + i) j =
      (Screen.picture s.size.width shown).cells i j

/-- The terminal shows the text, and its cursor is where the cursor of the text is. -/
structure InStep (setup : Setup) (start : Screen) (s : Session) : Prop where
  row : (screenOf start s).row = (screenOf start s).origin + (cursorPlace setup s).rows
  column : (screenOf start s).column = (cursorPlace setup s).columns
  lastCursorRow : s.editor.lastCursorRow = (cursorPlace setup s).rows
  displays : Displays setup start s s.editor.buffer.text []

structure DrawnFrom (setup : Setup) (start : Screen) (top : Nat) (jump : Bool) (s s' : Session) :
    Prop where
  redrew : Redrew s s'
  inStep : InStep setup start s'
  ground : (screenOf start s').mode = .ground
  origin : (screenOf start s').origin = top
  calls : ∃ new, s'.drawn = s.drawn ++ new ∧ new.any Call.isAbsolute = false
  atEnd : jump = true → s'.editor.buffer.after = []

theorem ends_redraw_drawnFrom (ht : Tidy setup) {start : Screen} {top : Nat} (jump : Bool)
    (hw : 2 ≤ s.size.columns) (hclean : Clean s.editor.buffer.text)
    (hground : (screenOf start s).mode = .ground)
    (hrow : (screenOf start s).row = top + s.editor.lastCursorRow) :
    Ends (redraw setup jump) s (fun _ => DrawnFrom setup start top jump s) fun _ => False := by
  have hwidth : 2 ≤ s.size.width := Nat.le_trans hw (Nat.le_max_left _ _)
  have htext := placed_text setup jump s
  have hplaced : Clean (placed setup jump s).text := by rwa [htext]
  obtain ⟨shown, hrun, hpresents⟩ :=
    View.display_shown ht hplaced s.size jump s.editor.lastDisplayRow
  obtain ⟨hback, hmode⟩ := play_returnCalls hrow s.size.width
  have hcolumn := screen_columns_lt (Nat.lt_of_lt_of_le Nat.two_pos hwidth)
    ((placed setup jump s).cursorLayout (s.context setup))
  obtain ⟨hshows, hend, hcursor⟩ := play_calls (v := viewOf setup jump s) hwidth hback
    (hmode.trans hground) hrun hcolumn
  refine ends_redraw_ok ht.quiet jump fun calls => ?_
  have hscreen : screenOf start { s with
      editor := { s.editor with
        buffer := placed setup jump s
        lastDisplayRow := (viewOf setup jump s).lastRow
        lastCursorRow := (viewOf setup jump s).cursor.rows }
      calls
      drawn := s.drawn ++ returnCalls s.editor.lastCursorRow ++
        (viewOf setup jump s).calls s.size.width } =
      ((screenOf start s).play s.size.width (returnCalls s.editor.lastCursorRow)).play s.size.width
        ((viewOf setup jump s).calls s.size.width) := by
    simp only [screenOf, Screen.play_append]
  refine ⟨⟨htext, rfl, rfl⟩, ⟨?_, ?_, rfl, ?_⟩, ?_, ?_, ?_, ?_⟩
  · rw [hscreen, hshows.origin]
    exact hend
  · rw [hscreen]
    exact hcursor
  · refine ⟨s.drawn ++ returnCalls s.editor.lastCursorRow, placed setup jump s, jump,
      s.editor.lastDisplayRow, shown, rfl, (List.append_nil _).symm, hrun, hpresents, ?_⟩
    rw [hscreen, hshows.origin]
    exact hshows.cells
  · rw [hscreen]
    exact hshows.ground
  · rw [hscreen]
    exact hshows.origin
  · exact ⟨_, List.append_assoc _ _ _, isAbsolute_redraw _ _ _⟩
  · intro hjump
    simp only [placed, hjump, if_true]
    rfl

end Session
end Promptline
