import Promptline.Proofs.Session.Restyling
import Promptline.Proofs.Session.Retry
import Promptline.Proofs.Session.Window

set_option autoImplicit false

namespace Promptline.Session

open Display Keys Terminal

variable {setup : Setup} {s s' : Session} {p : Prompts} {b : Buffer} {width : Nat}

/-- The cursor is shown on the rows of its line. -/
theorem cursorRow_within (hw : 0 < width) (hfirst : Printable p.first)
    (hcontinuation : Printable p.continuation) (hclean : Clean b.text) :
    b.lineIndex < (pieces p id (Text.lines b.text)).length ∧
      startRow width (pieces p id (Text.lines b.text)) b.lineIndex ≤ b.cursorRow ⟨p, width⟩ ∧
      b.cursorRow ⟨p, width⟩ ≤ endRow width (pieces p id (Text.lines b.text)) b.lineIndex := by
  obtain ⟨above, line, rest, below, hbefore, htext, hcount⟩ := Text.lines_append b.before b.after
  obtain ⟨shown, prompt, hlength, -, hpieces⟩ := pieces_append p id above
  have hindex : b.lineIndex = shown.length := hcount.symm.trans hlength.symm
  have hcursor : b.cursorRow ⟨p, width⟩ =
      startRow width shown shown.length + ((layoutShown width (prompt ++ line)).screen width).rows := by
    have hlines : ∀ l ∈ Text.lines b.before, Printable l :=
      Clean.lines fun c hc => hclean c (List.mem_append_left _ hc)
    have hrun := run_showLines faithful_plain hfirst hcontinuation hlines
    rw [showLines_eq _ id, hbefore, hpieces] at hrun
    have hrows := layout_showLines hw hrun (by simp)
    rw [List.length_append, List.map_nil, List.length_singleton, Nat.add_sub_cancel,
      endRow_append] at hrows
    rw [Buffer.cursorRow, Buffer.cursorLayout, Context.layoutOf, Prompts.decorate, hbefore]
    exact hrows
  change _ < (pieces p id (Text.lines (b.before ++ b.after))).length ∧ _
  rw [Buffer.text, htext, hpieces, hindex, hcursor, startRow_append, endRow_append]
  refine ⟨by simp, Nat.le_add_right _ _, Nat.add_le_add_left ?_ _⟩
  have hlonger := layoutShown_screen_le hw (prompt ++ line) rest
  rwa [List.append_assoc] at hlonger

/-- Nothing is written for the line of the cursor just if it is the empty one at the end of a text that
ends in a line feed, and has neither a prompt nor a style that puts anything on it. -/
theorem nothing_written_iff {style : Text → Text} (hstyle : Faithful style) (hclean : Clean b.text) :
    (b.lineIndex ≠ 0 ∧ b.lineIndex + 1 = (Text.lines b.text).length ∧
        (pieces p style (Text.lines b.text)).getD b.lineIndex [] = []) ↔
      b.after = [] ∧ b.before.getLast? = some '\n' ∧ p.continuation = [] ∧ style [] = [] := by
  obtain ⟨above, line, rest, below, hbefore, htext, hcount⟩ := Text.lines_append b.before b.after
  obtain ⟨shown, prompt, hlength, hprompt, hpieces⟩ := pieces_append p style above
  have hindex : b.lineIndex = above.length := hcount.symm
  have hpiece : (pieces p style (Text.lines b.text)).getD b.lineIndex [] =
      prompt ++ style (line ++ rest) := by
    rw [Buffer.text, htext, hpieces, hindex, ← hlength]
    simp
  have hone : b.lineIndex + 1 = (Text.lines b.text).length ↔ below = [] := by
    rw [Buffer.text, htext, hindex, List.length_append, List.length_cons,
      ← List.length_eq_zero_iff]
    omega
  rw [hpiece, hone, hindex, ne_eq, List.length_eq_zero_iff, List.append_eq_nil_iff]
  constructor
  · rintro ⟨habove, rfl, hcontinuation, hempty⟩
    rw [hprompt habove] at hcontinuation
    have hprintable : Printable (line ++ rest) := by
      refine hclean.lines _ ?_
      rw [Buffer.text, htext]
      exact List.mem_append_right _ List.mem_cons_self
    have hnil : line ++ rest = [] := by
      by_contra hne
      exact hstyle.ne_nil hprintable hne hempty
    obtain ⟨rfl, rfl⟩ := List.append_eq_nil_iff.mp hnil
    have hsame : b.before ++ b.after = b.before := by
      rw [← Text.joinLines_lines (b.before ++ b.after), htext, List.append_nil, ← hbefore,
        Text.joinLines_lines]
    have hfeed := (Text.getLast?_lineFeed_iff hbefore).mpr ⟨habove, rfl⟩
    exact ⟨List.append_right_eq_self.mp hsame, hfeed, hcontinuation, hempty⟩
  · rintro ⟨hafter, hfeed, hcontinuation, hempty⟩
    obtain ⟨habove, rfl⟩ := (Text.getLast?_lineFeed_iff hbefore).mp hfeed
    rw [hafter, List.append_nil, hbefore] at htext
    obtain ⟨hrest, rfl⟩ := List.cons.inj (List.append_cancel_left htext)
    exact ⟨habove, rfl, by rw [hprompt habove, hcontinuation], by rw [← hrest, hempty]⟩

/-- The line of the cursor is left out: the text is cut, and nothing is written for the empty line at its
end, on which the cursor is. -/
structure LeavesOut (setup : Setup) (size : Size) (b : Buffer) : Prop where
  clipped : size.height ≤
    ((b.textLayout ⟨setup.config.prompts, size.width⟩).screen size.width).rows
  atEnd : b.after = []
  lineFeed : b.before.getLast? = some '\n'
  prompt : setup.config.prompts.continuation = []
  style : setup.presenter [] = []

namespace Legible

theorem leavesOut_iff (h : Legible setup s) (jump : Bool) :
    LeavesOut setup s.size (placed setup jump s) ↔ (placed setup jump s).lineIndex ≠ 0 ∧
      s.size.height ≤ endOfText setup s ∧
      (placed setup jump s).lineIndex + 1 = (shownLines setup s).length ∧
      (writtenLines setup s).getD (placed setup jump s).lineIndex [] = [] := by
  have htext := placed_text setup jump s
  have hempty := nothing_written_iff (p := setup.config.prompts) (b := placed setup jump s) h.style
    (by rw [htext]; exact h.text)
  rw [htext, ← pieces_length setup.config.prompts id (Text.lines_ne_nil _)] at hempty
  rw [← h.textLayout_rows jump]
  constructor
  · rintro ⟨hclipped, hafter, hfeed, hprompt, hplain⟩
    obtain ⟨hlower, hone, hnil⟩ := hempty.mpr ⟨hafter, hfeed, hprompt, hplain⟩
    exact ⟨hlower, hclipped, hone, hnil⟩
  · rintro ⟨hlower, hclipped, hone, hnil⟩
    obtain ⟨hafter, hfeed, hprompt, hplain⟩ := hempty.mp ⟨hlower, hone, hnil⟩
    exact ⟨hclipped, hafter, hfeed, hprompt, hplain⟩

theorem cursor_within (h : Legible setup s) (jump : Bool) :
    (placed setup jump s).lineIndex < (shownLines setup s).length ∧
      startRow s.size.width (shownLines setup s) (placed setup jump s).lineIndex ≤
        (viewOf setup jump s).cursor.rows ∧
      (viewOf setup jump s).cursor.rows ≤
        endRow s.size.width (shownLines setup s) (placed setup jump s).lineIndex := by
  have htext := placed_text setup jump s
  have hcursor := cursorRow_within (b := placed setup jump s) (size_width_pos s.size) h.first
    h.continuation (by rw [htext]; exact h.text)
  rwa [htext] at hcursor

/-- The line of the cursor starts in the window. -/
theorem startRow_le_lastRow (h : Legible setup s) (jump : Bool) :
    startRow s.size.width (shownLines setup s) (placed setup jump s).lineIndex ≤
      (viewOf setup jump s).lastRow :=
  Nat.le_trans (h.cursor_within jump).2.1 (viewOf_lastRow setup jump s).1

end Legible

namespace WrittenUpTo

variable {jump : Bool} {m : Nat}

theorem lineIndex_le_iff (h : WrittenUpTo setup jump s m) (hs : Legible setup s) :
    (placed setup jump s).lineIndex ≤ m ↔ ¬ LeavesOut setup s.size (placed setup jump s) := by
  have hindex := (hs.cursor_within jump).1
  rw [h.kept hindex, hs.leavesOut_iff jump]
  constructor
  · rintro (hzero | ⟨-, hsome⟩) ⟨hlower, hclipped, hone, hnil⟩
    · exact hlower hzero
    · exact (hsome hclipped).elim (fun hlt => by omega) fun hnonempty => hnonempty hnil
  · intro hout
    by_contra hnot
    simp only [not_or, not_and, Classical.not_imp, ne_eq, not_not] at hnot
    obtain ⟨hclipped, hshort, hnil⟩ := hnot.2 (hs.startRow_le_lastRow jump)
    exact hout ⟨hnot.1, hclipped, by omega, hnil⟩

/-- A line that is left out is empty, and the one right below what is written. -/
theorem lineIndex_of_leavesOut (h : WrittenUpTo setup jump s m) (hs : Legible setup s)
    (hleft : LeavesOut setup s.size (placed setup jump s)) :
    (placed setup jump s).lineIndex = m + 1 ∧ (shownLines setup s).getD (m + 1) [] = [] := by
  obtain ⟨-, -, hone, hnil⟩ := (hs.leavesOut_iff jump).mp hleft
  have hindex := (hs.cursor_within jump).1
  have hout := mt (h.lineIndex_le_iff hs).mp (not_not.mpr hleft)
  have habove : (placed setup jump s).lineIndex - 1 ≤ m := by
    refine (h.kept (by omega)).mpr (.inr ⟨?_, fun _ => .inl (by omega)⟩)
    exact Nat.le_trans (startRow_le (Nat.sub_le _ 1)) (hs.startRow_le_lastRow jump)
  have hnext : (placed setup jump s).lineIndex = m + 1 := by omega
  exact ⟨hnext, hnext ▸ hs.written.getD_eq_nil hnil⟩

theorem rowsBelow_nonneg_iff (h : WrittenUpTo setup jump s m) (hs : Legible setup s) :
    0 ≤ (viewOf setup jump s).rowsBelow s.size.width ↔
      ¬ LeavesOut setup s.size (placed setup jump s) ∨
        (Display.layout s.size.width (viewOf setup jump s).display).isPending s.size.width = true := by
  obtain ⟨-, hstart, hend⟩ := hs.cursor_within jump
  rw [View.rowsBelow, h.bottom hs]
  by_cases hleft : LeavesOut setup s.size (placed setup jump s)
  · obtain ⟨hnext, hnil⟩ := h.lineIndex_of_leavesOut hs hleft
    rw [hnext] at hstart hend
    have hrow : (viewOf setup jump s).cursor.rows =
        endRow s.size.width (shownLines setup s) (m + 1) :=
      Nat.le_antisymm hend ((endRow_of_nil hnil).symm ▸ hstart)
    rw [h.layout hs, ← endRow_empty_le_iff h.lt hnil, ← hrow]
    simp only [hleft, not_true_eq_false, false_or]
    omega
  · have hreached := Nat.le_trans hend (endRow_le ((h.lineIndex_le_iff hs).mpr hleft) h.lt)
    simp only [hleft, not_false_eq_true, true_or, iff_true]
    omega

end WrittenUpTo

/-- The window follows the cursor: a redraw sets it so that it begins at most a terminal's height above
its last row, which is neither above the cursor nor below the end of the text. What is written are the
first lines of the text, as a whole; the line of the cursor is among them and the cursor is not moved
down to its row, unless that line is the one that is left out. -/
theorem window_follows_cursor {jump : Bool} (hredraw : redraw setup jump s = .ok () s') :
    let v := viewOf setup jump s
    let b := s'.editor.buffer
    let ctx : Context := ⟨setup.config.prompts, s.size.width⟩
    b = placed setup jump s ∧ v.cursor = (b.cursorLayout ctx).screen ctx.width ∧
    s'.drawn = s.drawn ++ returnCalls s.editor.lastCursorRow ++ v.calls ctx.width ∧
    v.cursor.rows ≤ s'.editor.lastDisplayRow ∧
    s'.editor.lastDisplayRow ≤ ((b.textLayout ctx).screen ctx.width).rows ∧
    s'.editor.lastDisplayRow < v.cursor.rows + s.size.height ∧
    (Printable setup.config.prompts.first → Printable setup.config.prompts.continuation →
      Faithful setup.presenter → Clean b.text →
      ∃ k, 0 < k ∧ k ≤ (Text.lines b.text).length ∧
        v.display = setup.config.prompts.showLines setup.presenter ((Text.lines b.text).take k) ∧
        (b.lineIndex < k ↔ ¬ LeavesOut setup s.size b) ∧
        (0 ≤ v.rowsBelow ctx.width ↔ ¬ LeavesOut setup s.size b ∨
          (layout ctx.width v.display).isPending ctx.width = true)) := by
  intro v b ctx
  have hb : b = placed setup jump s := (ends_redraw_placed jump).of_ok hredraw
  obtain ⟨hdrawn, -, hlast⟩ := (ends_redraw_drawn jump).of_ok hredraw
  have hwindow := viewOf_lastRow setup jump s
  rw [hb, hlast]
  refine ⟨rfl, rfl, hdrawn, hwindow.1, lastRowFor_le _ _ _ _ _, hwindow.2, ?_⟩
  intro hfirst hcontinuation hstyle hclean
  rw [placed_text] at hclean ⊢
  have hs : Legible setup s := ⟨hfirst, hcontinuation, hstyle, hclean⟩
  obtain ⟨m, hwritten⟩ := hs.writtenUpTo jump
  have hlines := Text.lines_ne_nil s.editor.buffer.text
  have hlength : (shownLines setup s).length = (Text.lines s.editor.buffer.text).length :=
    pieces_length _ id hlines
  refine ⟨m + 1, Nat.succ_pos m, hlength ▸ hwritten.lt, ?_,
    Nat.lt_succ_iff.trans (hwritten.lineIndex_le_iff hs), hwritten.rowsBelow_nonneg_iff hs⟩
  rw [hwritten.display, writtenLines, pieces_take hlines, showLines_eq]

/-- The cursor goes up from the end of five lines and the terminal gets lower. The next redraw clips the
last line and keeps the cursor's. -/
theorem clipped_after_resize : ∃ s s', Reachable Setup.bold s ∧ Clean s'.editor.buffer.text ∧
    redraw Setup.bold false s = .ok () s' ∧ s.size = ⟨10, 2⟩ ∧ s.editor.lastDisplayRow = 4 ∧
    s'.editor.buffer.lineIndex = 2 ∧ ¬ LeavesOut Setup.bold s.size s'.editor.buffer ∧
    (viewOf Setup.bold false s).cursor.rows = 2 ∧ 2 ≤ s'.editor.lastDisplayRow ∧
    s'.editor.lastDisplayRow < 2 + 2 ∧
    (∃ k, 2 < k ∧ k ≤ (Text.lines s'.editor.buffer.text).length ∧
      (viewOf Setup.bold false s).display = Setup.bold.config.prompts.showLines
        Setup.bold.presenter ((Text.lines s'.editor.buffer.text).take k)) ∧
    strip (viewOf Setup.bold false s).display = "> 1\n  2\n  3\n  4".toList ∧
    0 ≤ (viewOf Setup.bold false s).rowsBelow 10 := by
  let pressed : List Request := [.key (.ofText "1\n2\n3\n4\n5".toList), .key (.ofName .up),
    .key (.ofName .up), .resize ⟨10, 2⟩]
  have hrun : (create Setup.bold ⟨10, 3⟩ [] []).toOption.any (fun created =>
      let s := (run Setup.bold pressed created).2
      s.size == ⟨10, 2⟩ && decide (Clean s.editor.buffer.text) && s.editor.lastDisplayRow == 4 &&
        (placed Setup.bold false s).lineIndex == 2 && (viewOf Setup.bold false s).cursor.rows == 2 &&
        strip (viewOf Setup.bold false s).display == "> 1\n  2\n  3\n  4".toList) = true := by
    decide +kernel
  obtain ⟨created, hcreated, hfacts⟩ := (Option.any_eq_true _ _).mp hrun
  have hreach := (Reachable.created (created_of_toOption hcreated)).run pressed
  generalize (run Setup.bold pressed created).2 = s at hfacts hreach
  simp only [Bool.and_eq_true, beq_iff_eq, decide_eq_true_eq] at hfacts
  obtain ⟨⟨⟨⟨⟨hsize, hclean⟩, hlast⟩, hindex⟩, hcursor⟩, hshown⟩ := hfacts
  obtain ⟨_, s', hredraw, -⟩ := (ends_redraw_quiet (s := s) tidy_bold.quiet false).exists_ok
  have hwidth : s.size.width = 10 := by rw [hsize]; rfl
  have hheight : s.size.height = 2 := by rw [hsize]; rfl
  have hfollows := window_follows_cursor hredraw
  dsimp only at hfollows
  rw [hwidth, hheight, hcursor] at hfollows
  obtain ⟨hplaced, -, -, hfirst, -, hheight, hwritten⟩ := hfollows
  have hkept : ¬ LeavesOut Setup.bold s.size s'.editor.buffer :=
    fun h => absurd h.prompt (by decide)
  have hclean' : Clean s'.editor.buffer.text := by rwa [hplaced, placed_text]
  obtain ⟨k, -, hle, hdisplay, hline, hbelow⟩ := hwritten tidy_bold.first tidy_bold.continuation
    tidy_bold.presenter hclean'
  rw [← hplaced] at hindex
  rw [hindex] at hline
  exact ⟨s, s', hreach, hclean', hredraw, hsize, hlast, hindex, hkept, hcursor, hfirst, hheight,
    ⟨k, hline.mpr hkept, hle, hdisplay⟩, hshown, hbelow.mpr (.inl hkept)⟩

/-- Without a continuation prompt the line of the cursor is left out, and the cursor has to be moved down
to its row from the end of what is written. -/
theorem cursor_line_left_out : ∃ s s', Reachable (.styled (.withContinuation .standard []) .plain) s ∧
    Clean s.editor.buffer.text ∧ Faithful Presenter.plain ∧
    redraw (.styled (.withContinuation .standard []) .plain) false s = .ok () s' ∧
    s.size = ⟨80, 2⟩ ∧ s'.editor.buffer.text = "a\nb\n".toList ∧ s'.editor.buffer.lineIndex = 2 ∧
    (viewOf (.styled (.withContinuation .standard []) .plain) false s).display =
      "> a\nb".toList ∧
    [.write "> a\nb".toList, .cursorTo 0 none, .moveCursor 0 1, .flush] <:+ s.drawn ∧
    [.write "> a\nb".toList, .cursorTo 0 none, .moveCursor 0 1, .flush] <:+ s'.drawn ∧
    ¬ 0 ≤ (viewOf (.styled (.withContinuation .standard []) .plain) false s).rowsBelow 80 := by
  let setup : Setup := .styled (.withContinuation .standard []) .plain
  let pressed : List Request := [.key (.ofChar 'a'), .key (.ofCtrl 'n'), .key (.ofChar 'b'),
    .key (.ofCtrl 'n')]
  have hrun : (create setup ⟨80, 2⟩ [] []).toOption.any (fun created =>
      let s := (run setup pressed created).2
      let v := viewOf setup false s
      s.size == ⟨80, 2⟩ && decide (Clean s.editor.buffer.text) &&
        (placed setup false s).text == "a\nb\n".toList &&
        (placed setup false s).lineIndex == 2 && v.display == "> a\nb".toList &&
        decide ([.write "> a\nb".toList, .cursorTo 0 none, .moveCursor 0 1, .flush] <:+ s.drawn) &&
        decide ([.write "> a\nb".toList, .cursorTo 0 none, .moveCursor 0 1, .flush] <:+ v.calls 80) &&
        decide (¬ 0 ≤ v.rowsBelow 80)) = true := by
    decide +kernel
  obtain ⟨created, hcreated, hfacts⟩ := (Option.any_eq_true _ _).mp hrun
  have hreach := (Reachable.created (created_of_toOption hcreated)).run pressed
  generalize (run setup pressed created).2 = s at hfacts hreach
  simp only [Bool.and_eq_true, beq_iff_eq, decide_eq_true_eq] at hfacts
  obtain ⟨⟨⟨⟨⟨⟨⟨hsize, hclean⟩, htext⟩, hindex⟩, hdisplay⟩, hbefore⟩, hcalls⟩, hdown⟩ := hfacts
  have hquiet : ∀ n, setup.fails n = false := fun _ => rfl
  obtain ⟨_, s', hredraw, -⟩ := (ends_redraw_quiet (s := s) hquiet false).exists_ok
  have hplaced := (ends_redraw_placed false).of_ok hredraw
  have hdrawn := ((ends_redraw_drawn false).of_ok hredraw).1
  have hwidth : s.size.width = 80 := by rw [hsize]; rfl
  rw [← hplaced] at htext hindex
  refine ⟨s, s', hreach, hclean, faithful_plain, hredraw, hsize, htext, hindex, hdisplay, hbefore, ?_,
    hdown⟩
  rw [hdrawn, hwidth]
  exact hcalls.trans (List.suffix_append _ _)

end Promptline.Session
