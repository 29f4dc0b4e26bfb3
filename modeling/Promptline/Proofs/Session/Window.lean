import Promptline.Proofs.Display.Rows
import Promptline.Proofs.Session.Cursor
import Promptline.Proofs.Session.FailedDrawing

set_option autoImplicit false

namespace Promptline.Session

open Display Keys Terminal

variable {setup : Setup} {s s' : Session} {jump : Bool} {width height : Nat}

theorem lastRowFor_bounds (hh : 0 < height) {textEnd cursor : Nat} (hc : cursor ≤ textEnd)
    (jump : Bool) (last : Nat) :
    cursor ≤ lastRowFor jump height textEnd cursor last ∧
      lastRowFor jump height textEnd cursor last < cursor + height := by
  unfold lastRowFor
  split_ifs with hclipped hcursor hlast
  · omega
  · omega
  · simp only [Bool.or_eq_true, decide_eq_true_eq, not_or] at hcursor
    omega
  · omega

theorem lastRowFor_le (jump : Bool) (height textEnd cursor last : Nat) :
    lastRowFor jump height textEnd cursor last ≤ textEnd := by
  unfold lastRowFor
  split
  · exact Nat.min_le_left _ _
  · exact Nat.le_refl _

/-- The row on which what is written ends, with the blank that follows a full row. -/
def View.bottom (v : View) (width : Nat) : Nat := ((layout width v.display).screen width).rows

def View.rowsBelow (v : View) (width : Nat) : Int := v.bottom width - v.cursor.rows

def scrolled (height row : Nat) : Nat := row + 1 - height

/-- On a terminal of `height` rows, where a view is written from row `top` on, the row of the cursor is
not scrolled off and the way back up to it is not cut short. -/
structure View.InReach (v : View) (width height top : Nat) : Prop where
  visible : scrolled height (top + v.bottom width) ≤ top + v.cursor.rows
  back : v.rowsBelow width ≤ top + v.bottom width - scrolled height (top + v.bottom width)

theorem rowsBelow_lt_iff_inReach (v : View) (hh : 0 < height) :
    v.rowsBelow width < height ↔ ∀ top < height, v.InReach width height top := by
  unfold View.rowsBelow
  refine ⟨fun h top htop => ⟨?_, ?_⟩, fun h => ?_⟩
  · unfold scrolled
    omega
  · unfold View.rowsBelow scrolled
    omega
  · have hvisible := (h 0 hh).visible
    unfold scrolled at hvisible
    omega

theorem size_width_pos (size : Size) : 0 < size.width := Nat.le_max_right _ _

theorem size_height_pos (size : Size) : 0 < size.height := Nat.le_max_right _ _

theorem viewOf_lastRow (setup : Setup) (jump : Bool) (s : Session) :
    (viewOf setup jump s).cursor.rows ≤ (viewOf setup jump s).lastRow ∧
      (viewOf setup jump s).lastRow < (viewOf setup jump s).cursor.rows + s.size.height :=
  lastRowFor_bounds (size_height_pos s.size)
    (Context.layoutOf_screen_le ⟨setup.config.prompts, s.size.width⟩ _ _) jump _

def shownLines (setup : Setup) (s : Session) : List Text :=
  pieces setup.config.prompts id (Text.lines s.editor.buffer.text)

theorem shownLines_length_pos (setup : Setup) (s : Session) : 0 < (shownLines setup s).length := by
  unfold shownLines
  cases Text.lines s.editor.buffer.text <;> exact Nat.succ_pos _

theorem layout_of_shown (hw : 0 < width) {t u : Text} (h : Display.run .ground t = (.ground, u)) :
    layout width t = layoutShown width u := by
  have hmax : max width 1 = width := by omega
  rw [layout, strip, h, hmax]

theorem layout_showLines (hw : 0 < width) {us : List Text} {t : Text}
    (hshown : Display.run .ground t = (.ground, Text.joinLines us)) (hpos : 0 < us.length) :
    ((layout width t).screen width).rows = endRow width us (us.length - 1) := by
  have hlast : us.length - 1 < us.length := Nat.sub_one_lt_of_lt hpos
  have hall : us.take (us.length - 1 + 1) = us := List.take_of_length_le (by omega)
  rw [layout_of_shown hw hshown, ← joinLines_screen_rows hlast, hall]

def writtenLines (setup : Setup) (s : Session) : List Text :=
  pieces setup.config.prompts setup.presenter (Text.lines s.editor.buffer.text)

def endOfText (setup : Setup) (s : Session) : Nat :=
  endRow s.size.width (shownLines setup s) ((shownLines setup s).length - 1)

structure Legible (setup : Setup) (s : Session) : Prop where
  first : Printable setup.config.prompts.first
  continuation : Printable setup.config.prompts.continuation
  style : Faithful setup.presenter
  text : Clean s.editor.buffer.text

/-- The lines up to number `m` are written, which are those that start in the window. Only an empty line
at the end for which nothing is written is left out of a text that is cut. -/
structure WrittenUpTo (setup : Setup) (jump : Bool) (s : Session) (m : Nat) : Prop where
  lt : m < (shownLines setup s).length
  display : (viewOf setup jump s).display = Text.joinLines ((writtenLines setup s).take (m + 1))
  kept {k : Nat} : k < (shownLines setup s).length → (k ≤ m ↔ k = 0 ∨
    startRow s.size.width (shownLines setup s) k ≤ (viewOf setup jump s).lastRow ∧
      (s.size.height ≤ endOfText setup s →
        k + 1 < (shownLines setup s).length ∨ (writtenLines setup s).getD k [] ≠ []))

namespace Legible

theorem written (h : Legible setup s) : Written (writtenLines setup s) (shownLines setup s) :=
  written_pieces h.style h.first h.continuation h.text.lines

theorem textLayout_rows (h : Legible setup s) (jump : Bool) :
    (((placed setup jump s).textLayout ⟨setup.config.prompts, s.size.width⟩).screen
      s.size.width).rows = endOfText setup s := by
  have hplain := run_showLines faithful_plain h.first h.continuation h.text.lines
  rw [showLines_eq _ id] at hplain
  rw [Buffer.textLayout, Context.layoutOf, Prompts.decorate, placed_text]
  exact layout_showLines (size_width_pos s.size) hplain (shownLines_length_pos setup s)

/-- Only a text that is higher than the terminal is cut. -/
theorem display_eq (h : Legible setup s) (jump : Bool) : (viewOf setup jump s).display =
    if s.size.height ≤ endOfText setup s then
      dropLineFeed (linesBefore (Text.joinLines (writtenLines setup s))
        ((viewOf setup jump s).lastRow + 1) s.size.width)
    else Text.joinLines (writtenLines setup s) := by
  unfold viewOf View.ofBuffer
  dsimp only
  rw [h.textLayout_rows jump, styledText, placed_text, showLines_eq]
  rfl

theorem lastRow_of_fits (h : Legible setup s) (hfits : ¬ s.size.height ≤ endOfText setup s)
    (jump : Bool) : (viewOf setup jump s).lastRow = endOfText setup s := by
  unfold viewOf View.ofBuffer
  dsimp only
  rw [h.textLayout_rows jump, lastRowFor, if_neg hfits]

theorem writtenUpTo (h : Legible setup s) (jump : Bool) : ∃ m, WrittenUpTo setup jump s m := by
  have hpos := shownLines_length_pos setup s
  have hlength : (writtenLines setup s).length = (shownLines setup s).length := h.written.length_eq
  have hdisplay := h.display_eq jump
  by_cases hclipped : s.size.height ≤ endOfText setup s
  · rw [if_pos hclipped, writtenLines, ← showLines_eq] at hdisplay
    obtain ⟨m, hm, hdropped, hkept⟩ := linesBefore_rows (size_width_pos s.size) h.style h.first
      h.continuation h.text.lines (viewOf setup jump s).lastRow
    change m < (writtenLines setup s).length at hm
    change ∀ k < (writtenLines setup s).length, _ ↔ _ ∨ _ ∧ (k + 1 < (writtenLines setup s).length ∨ _)
      at hkept
    rw [hlength] at hm hkept
    refine ⟨m, hm, hdisplay.trans hdropped, fun hk => (hkept _ hk).trans ?_⟩
    exact or_congr_right (and_congr_right fun _ => ⟨fun h _ => h, fun h => h hclipped⟩)
  · rw [if_neg hclipped] at hdisplay
    have hall : (writtenLines setup s).take ((shownLines setup s).length - 1 + 1) =
        writtenLines setup s := List.take_of_length_le (by omega)
    refine ⟨(shownLines setup s).length - 1, by omega, by rw [hall, hdisplay], fun {k} hk => ?_⟩
    have hlast : k ≤ (shownLines setup s).length - 1 := Nat.le_sub_one_of_lt hk
    refine ⟨fun _ => .inr ⟨?_, fun h => absurd h hclipped⟩, fun _ => hlast⟩
    rw [h.lastRow_of_fits hclipped]
    exact Nat.le_trans (startRow_le hlast) (startRow_le_endRow _ _ _)

end Legible

namespace WrittenUpTo

variable {m : Nat}

theorem layout (h : WrittenUpTo setup jump s m) (hs : Legible setup s) :
    Display.layout s.size.width (viewOf setup jump s).display =
      layoutShown s.size.width (Text.joinLines ((shownLines setup s).take (m + 1))) := by
  have htaken : Written ((writtenLines setup s).take (m + 1)) ((shownLines setup s).take (m + 1)) :=
    List.forall₂_take (m + 1) hs.written
  rw [h.display, layout_of_shown (size_width_pos s.size) htaken.run_joinLines]

theorem bottom (h : WrittenUpTo setup jump s m) (hs : Legible setup s) :
    (viewOf setup jump s).bottom s.size.width = endRow s.size.width (shownLines setup s) m := by
  rw [View.bottom, h.layout hs, joinLines_screen_rows h.lt]

end WrittenUpTo

/-- What is written ends with the last line that starts in the window, unless that one is empty. -/
theorem viewOf_bottom (hfirst : Printable setup.config.prompts.first)
    (hcontinuation : Printable setup.config.prompts.continuation)
    (hstyle : Faithful setup.presenter) (hclean : Clean s.editor.buffer.text) (jump : Bool) :
    ∃ m < (shownLines setup s).length,
      (viewOf setup jump s).bottom s.size.width = endRow s.size.width (shownLines setup s) m ∧
      startRow s.size.width (shownLines setup s) m ≤ (viewOf setup jump s).lastRow ∧
      ∀ k, m < k → k < (shownLines setup s).length →
        startRow s.size.width (shownLines setup s) k ≤ (viewOf setup jump s).lastRow →
        (shownLines setup s).getD k [] = [] := by
  have hs : Legible setup s := ⟨hfirst, hcontinuation, hstyle, hclean⟩
  obtain ⟨m, h⟩ := hs.writtenUpTo jump
  refine ⟨m, h.lt, h.bottom hs, ?_, fun k hlt hk hstart => ?_⟩
  · rcases (h.kept h.lt).mp (Nat.le_refl m) with rfl | ⟨hstart, -⟩
    · rw [startRow_zero]
      exact Nat.zero_le _
    · exact hstart
  · -- A line for which nothing is written shows nothing.
    have hout := mt (h.kept hk).mpr (Nat.not_le.mpr hlt)
    simp only [not_or, not_and, Classical.not_imp, ne_eq, not_not] at hout
    obtain ⟨-, -, hnil⟩ := hout.2 hstart
    exact hs.written.getD_eq_nil hnil

theorem ends_redraw_drawn (jump : Bool) : Ends (redraw setup jump) s
    (fun _ s' => s'.drawn = s.drawn ++ returnCalls s.editor.lastCursorRow ++
        (viewOf setup jump s).calls s.size.width ∧
      s'.editor.lastCursorRow = (viewOf setup jump s).cursor.rows ∧
      s'.editor.lastDisplayRow = (viewOf setup jump s).lastRow) fun _ => True := by
  simp only [redraw, ends_bind, ends_get, ends_modifyEditor]
  refine (ends_drawAll_take _).mono (fun _ a ha => ?_) fun _ _ => trivial
  refine (ends_drawAll_take _).mono (fun _ b hb => ?_) fun _ _ => trivial
  subst ha
  subst hb
  exact ⟨rfl, rfl, rfl⟩

/-- A redraw writes fewer rows below the cursor than the terminal has, and then and only then the row of
the cursor stays in reach, just where every line that starts in the window also ends less than that
many rows below the cursor. Lines that take one row each do, and so does a text that fits. -/
theorem rowsBelow_lt_height_iff (hfirst : Printable setup.config.prompts.first)
    (hcontinuation : Printable setup.config.prompts.continuation)
    (hstyle : Faithful setup.presenter) (hclean : Clean s.editor.buffer.text)
    (hredraw : redraw setup jump s = .ok () s') :
    let v := viewOf setup jump s
    let us := shownLines setup s
    let width := s.size.width
    let height := s.size.height
    s'.drawn = s.drawn ++ returnCalls s.editor.lastCursorRow ++ v.calls width ∧
    s'.editor.lastCursorRow = v.cursor.rows ∧ s'.editor.lastDisplayRow = v.lastRow ∧
    (v.cursor.rows ≤ v.lastRow ∧ v.lastRow < v.cursor.rows + height) ∧
    (v.rowsBelow width < height ↔ ∀ k < us.length, startRow width us k ≤ v.lastRow →
      endRow width us k < v.cursor.rows + height) ∧
    (v.rowsBelow width < height ↔ ∀ top < height, v.InReach width height top) ∧
    ((∀ k < us.length, endRow width us k = startRow width us k) → v.rowsBelow width < height) ∧
    (endRow width us (us.length - 1) < height → v.rowsBelow width < height) := by
  intro v us width height
  obtain ⟨hdrawn, hcursor, hlast⟩ := (ends_redraw_drawn jump).of_ok hredraw
  obtain ⟨m, hm, hbottom, hstart, hlater⟩ :=
    viewOf_bottom hfirst hcontinuation hstyle hclean jump
  have hwindow := viewOf_lastRow setup jump s
  have hbelow : v.rowsBelow width < height ↔ endRow width us m < v.cursor.rows + height := by
    have hends : v.bottom width = endRow width us m := hbottom
    rw [View.rowsBelow, hends]
    omega
  have hiff : v.rowsBelow width < height ↔ ∀ k < us.length, startRow width us k ≤ v.lastRow →
      endRow width us k < v.cursor.rows + height := by
    rw [hbelow]
    refine ⟨fun h k hk hkstart => ?_, fun h => h m hm hstart⟩
    -- A later line that starts in the window is empty, so it ends there too.
    rcases Nat.lt_or_ge m k with hlt | hge
    · rw [endRow_of_nil (hlater k hlt hk hkstart)]
      exact Nat.lt_of_le_of_lt hkstart hwindow.2
    · exact Nat.lt_of_le_of_lt (endRow_le hge hm) h
  refine ⟨hdrawn, hcursor, hlast, hwindow, hiff,
    rowsBelow_lt_iff_inReach v (size_height_pos s.size), fun hunwrapped => ?_, fun hfits => ?_⟩
  · refine hiff.mpr fun k hk hkstart => ?_
    rw [hunwrapped k hk]
    exact Nat.lt_of_le_of_lt hkstart hwindow.2
  · have hle : endRow width us m ≤ endRow width us (us.length - 1) :=
      endRow_le (Nat.le_sub_one_of_lt hm) (Nat.sub_one_lt_of_lt hm)
    exact hbelow.mpr (Nat.lt_of_le_of_lt hle (Nat.lt_of_lt_of_le hfits (Nat.le_add_left _ _)))

/-- From the top of five short lines, the window of a terminal with three rows shows three of them. -/
theorem short_lines_inReach : ∃ s s', Reachable Setup.bold s ∧ Clean s.editor.buffer.text ∧
    redraw Setup.bold false s = .ok () s' ∧ s.size = ⟨10, 3⟩ ∧ (shownLines Setup.bold s).length = 5 ∧
    (viewOf Setup.bold false s).cursor.rows = 0 ∧ s'.editor.lastDisplayRow = 2 ∧
    (∀ k < 5, endRow 10 (shownLines Setup.bold s) k = startRow 10 (shownLines Setup.bold s) k) ∧
    (viewOf Setup.bold false s).rowsBelow 10 < 3 ∧ (viewOf Setup.bold false s).InReach 10 3 2 := by
  let pressed : List Request := .key (.ofText "1\n2\n3\n4\n5".toList) ::
    List.replicate 4 (.key (.ofName .up))
  have hrun : (create Setup.bold ⟨10, 3⟩ [] []).toOption.any (fun created =>
      let s := (run Setup.bold pressed created).2
      s.size == ⟨10, 3⟩ && decide (Clean s.editor.buffer.text) &&
        (shownLines Setup.bold s).length == 5 && (viewOf Setup.bold false s).cursor.rows == 0 &&
        (viewOf Setup.bold false s).lastRow == 2 &&
        (List.range 5).all fun k => endRow 10 (shownLines Setup.bold s) k ==
          startRow 10 (shownLines Setup.bold s) k) = true := by
    decide +kernel
  obtain ⟨created, hcreated, hfacts⟩ := (Option.any_eq_true _ _).mp hrun
  have hreach := (Reachable.created (created_of_toOption hcreated)).run pressed
  generalize (run Setup.bold pressed created).2 = s at hfacts hreach
  simp only [Bool.and_eq_true, beq_iff_eq, decide_eq_true_eq, List.all_eq_true, List.mem_range]
    at hfacts
  obtain ⟨⟨⟨⟨⟨hsize, hclean⟩, hlength⟩, hcursor⟩, hlast⟩, hunwrapped⟩ := hfacts
  obtain ⟨_, s', hredraw, -⟩ := (ends_redraw_quiet (s := s) tidy_bold.quiet false).exists_ok
  have hwidth : s.size.width = 10 := by rw [hsize]; rfl
  have hheight : s.size.height = 3 := by rw [hsize]; rfl
  have hbelow := rowsBelow_lt_height_iff tidy_bold.first tidy_bold.continuation tidy_bold.presenter
    hclean hredraw
  dsimp only at hbelow
  rw [hwidth, hheight, hlength] at hbelow
  obtain ⟨-, -, hlast', -, -, hreached, hshort, -⟩ := hbelow
  have hfew := hshort hunwrapped
  exact ⟨s, s', hreach, hclean, hredraw, hsize, hlength, hcursor, hlast'.trans hlast, hunwrapped, hfew,
    hreached.mp hfew 2 (by decide)⟩

/-- The second line starts on the last row of a terminal with two rows and wraps onto two more. With the
cursor on the first line it is written in full, and the cursor cannot be moved back to its row. -/
theorem wrapped_line_out_of_reach : ∃ s s', Reachable Setup.plain s ∧ Clean s.editor.buffer.text ∧
    redraw Setup.plain false s = .ok () s' ∧ s.size = ⟨10, 2⟩ ∧
    [.cursorTo 3 none, .moveCursor 0 (-3), .flush] <:+ s.drawn ∧
    (viewOf Setup.plain false s).display = "> a\n  bbbbbbbbbbbbbbbbbbbb".toList ∧
    (viewOf Setup.plain false s).cursor.rows = 0 ∧ s'.editor.lastDisplayRow = 1 ∧
    (viewOf Setup.plain false s).rowsBelow 10 = 3 ∧
    ¬ (viewOf Setup.plain false s).rowsBelow 10 < 2 ∧
    ∀ top < 2, ¬ (viewOf Setup.plain false s).InReach 10 2 top := by
  let pressed : List Request := [.key (.ofChar 'a'), .key (.ofCtrl 'n'),
    .key (.ofText (List.replicate 20 'b')), .key (.ofName .up)]
  have hrun : (create Setup.plain ⟨10, 2⟩ [] []).toOption.any (fun created =>
      let s := (run Setup.plain pressed created).2
      s.size == ⟨10, 2⟩ && decide (Clean s.editor.buffer.text) &&
        decide ([.cursorTo 3 none, .moveCursor 0 (-3), .flush] <:+ s.drawn) &&
        (viewOf Setup.plain false s).display == "> a\n  bbbbbbbbbbbbbbbbbbbb".toList &&
        (viewOf Setup.plain false s).cursor.rows == 0 &&
        (viewOf Setup.plain false s).lastRow == 1 &&
        (viewOf Setup.plain false s).bottom 10 == 3) = true := by
    decide +kernel
  obtain ⟨created, hcreated, hfacts⟩ := (Option.any_eq_true _ _).mp hrun
  have hreach := (Reachable.created (created_of_toOption hcreated)).run pressed
  generalize (run Setup.plain pressed created).2 = s at hfacts hreach
  simp only [Bool.and_eq_true, beq_iff_eq, decide_eq_true_eq] at hfacts
  obtain ⟨⟨⟨⟨⟨⟨hsize, hclean⟩, hback⟩, hdisplay⟩, hcursor⟩, hlast⟩, hbottom⟩ := hfacts
  obtain ⟨_, s', hredraw, -⟩ := (ends_redraw_quiet (s := s) tidy_plain.quiet false).exists_ok
  have hdrawn := (ends_redraw_drawn false).of_ok hredraw
  have hbelow : (viewOf Setup.plain false s).rowsBelow 10 = 3 := by
    rw [View.rowsBelow, hbottom, hcursor]
    rfl
  refine ⟨s, s', hreach, hclean, hredraw, hsize, hback, hdisplay, hcursor, hdrawn.2.2.trans hlast,
    hbelow, by rw [hbelow]; decide, fun top _ hreached => ?_⟩
  have hvisible := hreached.visible
  rw [hbottom, hcursor] at hvisible
  unfold scrolled at hvisible
  omega

end Promptline.Session
