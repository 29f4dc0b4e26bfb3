import Promptline.Proofs.Session.Drawing
import Promptline.Proofs.Session.Invariant

set_option autoImplicit false

namespace Promptline.Session

open Display Terminal

variable {setup : Setup} {s s' : Session} {start screen : Screen} {top width : Nat} {jump : Bool}

def InRow (start : Screen) (top : Nat) (s : Session) : Prop :=
  (screenOf start s).row = top + s.editor.lastCursorRow

def View.writeCalls (v : View) (width : Nat) : List Call :=
  .write v.display :: if (layout width v.display).isPending width then [.write [' ']] else []

def View.placingCalls (v : View) (width : Nat) : List Call :=
  let down : Int := v.cursor.rows - ((layout width v.display).screen width).rows
  .cursorTo v.cursor.columns none :: ((if down = 0 then [] else [.moveCursor 0 down]) ++ [.flush])

/-- The row of the terminal cursor, counted from the prompt's, when a view has been drawn up to its
call number `n`. -/
def View.rowAfter (v : View) (width n : Nat) : Nat :=
  let written := layout width v.display
  if n ≤ 2 then 0
  else if n = 3 then written.rows
  else if n + 1 < (v.calls width).length then (written.screen width).rows
  else v.cursor.rows

theorem ends_drawAll_take (cs : List Call) : Ends (drawAll setup cs) s
    (fun _ s' => s' = { s with calls := s.calls + cs.length, drawn := s.drawn ++ cs })
    fun s' => ∃ n, n < cs.length ∧
      s' = { s with calls := s.calls + n + 1, drawn := s.drawn ++ cs.take n } := by
  have hdraw (c : Call) (s : Session) : Ends (draw setup c) s
      (fun _ s' => s' = { s with calls := s.calls + 1, drawn := s.drawn ++ [c] })
      fun s' => s' = { s with calls := s.calls + 1 } := by
    unfold Ends draw
    cases setup.fails s.calls <;> exact rfl
  induction cs generalizing s with
  | nil =>
    change s = { s with calls := s.calls + 0, drawn := s.drawn ++ [] }
    rw [List.append_nil, Nat.add_zero]
  | cons c cs ih =>
    rw [drawAll, ends_bind]
    refine (hdraw c s).mono (fun _ a ha => ?_) fun a ha => ⟨0, Nat.succ_pos _, ?_⟩
    · rw [ha]
      refine ih.mono (fun _ b hb => ?_) fun b hb => ?_
      · rw [hb, List.append_assoc, List.singleton_append, List.length_cons, Nat.add_assoc,
          Nat.add_comm 1]
      · obtain ⟨n, hn, hb⟩ := hb
        refine ⟨n + 1, Nat.succ_lt_succ hn, ?_⟩
        rw [hb, List.append_assoc, List.singleton_append, List.take_succ_cons, Nat.add_assoc s.calls,
          Nat.add_comm 1]
    · rw [ha, List.take_zero, List.append_nil, Nat.add_zero]

/-- How far a redraw has come that failed at its call number `n`. -/
inductive StoppedAt (setup : Setup) (jump : Bool) (s s' : Session) (n : Nat) : Prop
  | back : n < (returnCalls s.editor.lastCursorRow).length →
      s'.editor.lastCursorRow = s.editor.lastCursorRow → s'.drawn = s.drawn →
      StoppedAt setup jump s s' n
  | view {m : Nat} : n = (returnCalls s.editor.lastCursorRow).length + m →
      m < ((viewOf setup jump s).calls s.size.width).length →
      s'.editor.lastCursorRow = (viewOf setup jump s).cursor.rows →
      s'.drawn = s.drawn ++ returnCalls s.editor.lastCursorRow ++
        ((viewOf setup jump s).calls s.size.width).take m →
      StoppedAt setup jump s s' n

theorem returnCalls_length_le (n : Nat) : (returnCalls n).length ≤ 1 := by
  unfold returnCalls
  split
  · exact Nat.zero_le 1
  · exact Nat.le_refl 1

theorem ends_redraw_stopped : Ends (redraw setup jump) s (fun _ _ => True)
    fun s' => ∃ n, s'.calls = s.calls + n + 1 ∧ StoppedAt setup jump s s' n := by
  simp only [redraw, ends_bind, ends_get, ends_modifyEditor]
  refine (ends_drawAll_take _).mono (fun _ a ha => ?_) fun a ha => ?_
  · refine (ends_drawAll_take _).mono (fun _ _ _ => trivial) fun b hb => ?_
    obtain ⟨m, hm, rfl⟩ := hb
    subst ha
    refine ⟨(returnCalls s.editor.lastCursorRow).length + m, ?_, .view rfl hm rfl rfl⟩
    simp only [Nat.add_assoc]
  · obtain ⟨n, hn, rfl⟩ := ha
    have hle := returnCalls_length_le s.editor.lastCursorRow
    have hn0 : n = 0 := Nat.lt_one_iff.mp (Nat.lt_of_lt_of_le hn hle)
    subst hn0
    exact ⟨0, rfl, .back hn rfl (List.append_nil _)⟩

theorem calls_eq (v : View) (width : Nat) : v.calls width =
    [.cursorTo 0 none, .clearToEnd] ++ v.writeCalls width ++ v.placingCalls width := by
  simp [View.calls, View.writeCalls, View.placingCalls]

theorem writeCalls_length (v : View) (width : Nat) : (v.writeCalls width).length =
    if (layout width v.display).isPending width then 2 else 1 := by
  unfold View.writeCalls
  split <;> rfl

theorem calls_length (v : View) (width : Nat) : (v.calls width).length =
    2 + (v.writeCalls width).length + (v.placingCalls width).length := by
  rw [calls_eq, List.length_append, List.length_append]
  rfl

theorem rowAfter_placing (v : View) (width k : Nat) :
    v.rowAfter width (2 + (v.writeCalls width).length + k) =
      if k + 1 < (v.placingCalls width).length then
        ((layout width v.display).screen width).rows else v.cursor.rows := by
  have hlength := writeCalls_length v width
  have hplacing : 1 < (v.placingCalls width).length := by simp [View.placingCalls]
  have hnext : 2 + (v.writeCalls width).length + k + 1 < (v.calls width).length ↔
      k + 1 < (v.placingCalls width).length := by
    rw [calls_length]
    omega
  cases hpending : (layout width v.display).isPending width with
  | true =>
    rw [hpending, if_pos rfl] at hlength
    rw [View.rowAfter, if_neg (by omega), if_neg (by omega)]
    simp only [hnext]
  | false =>
    rw [hpending, if_neg Bool.false_ne_true] at hlength
    have hscreen : ((layout width v.display).screen width).rows = (layout width v.display).rows := by
      rw [Layout.screen, hpending, if_neg Bool.false_ne_true]
    by_cases hfirst : 2 + (v.writeCalls width).length + k = 3
    · rw [View.rowAfter, if_neg (by omega), if_pos hfirst, if_pos (by omega), hscreen]
    · rw [View.rowAfter, if_neg (by omega), if_neg hfirst]
      simp only [hnext]

theorem play_placingCalls_take {v : View} {m : Nat} (hm : m < (v.placingCalls width).length)
    (hrow : screen.row = top + ((layout width v.display).screen width).rows) :
    (screen.play width ((v.placingCalls width).take m)).row =
        top + (if m + 1 < (v.placingCalls width).length then
          ((layout width v.display).screen width).rows else v.cursor.rows) ∧
      (screen.play width ((v.placingCalls width).take m)).mode = screen.mode := by
  let down : Int := v.cursor.rows - ((layout width v.display).screen width).rows
  by_cases hdown : down = 0
  · have hcalls : v.placingCalls width = [.cursorTo v.cursor.columns none, .flush] := by
      rw [View.placingCalls, if_pos hdown]
      rfl
    have hsame : ((layout width v.display).screen width).rows = v.cursor.rows := by omega
    rw [hcalls] at hm ⊢
    rw [hsame] at hrow ⊢
    rw [ite_self]
    match m, hm with
    | 0, _ => exact ⟨hrow, rfl⟩
    | 1, _ => exact ⟨hrow, rfl⟩
  · have hcalls : v.placingCalls width =
        [.cursorTo v.cursor.columns none, .moveCursor 0 down, .flush] := by
      rw [View.placingCalls, if_neg hdown]
      rfl
    rw [hcalls] at hm ⊢
    match m, hm with
    | 0, _ => exact ⟨hrow, rfl⟩
    | 1, _ => exact ⟨hrow, rfl⟩
    | 2, _ =>
      refine ⟨?_, rfl⟩
      change ((screen.row : Int) + down).toNat = top + v.cursor.rows
      omega

/-- The first calls of a view, from the prompt's row on. -/
theorem play_calls_take {v : View} {shown : Text} {m : Nat} (hw : 2 ≤ width)
    (hm : m < (v.calls width).length) (hrow : screen.row = top) (hground : screen.mode = .ground)
    (hshown : Display.run .ground v.display = (.ground, shown)) :
    (screen.play width ((v.calls width).take m)).row = top + v.rowAfter width m ∧
      (screen.play width ((v.calls width).take m)).mode = .ground := by
  let clear : List Call := [.cursorTo 0 none, .clearToEnd]
  have hcalls : v.calls width = clear ++ v.writeCalls width ++ v.placingCalls width :=
    calls_eq v width
  have hcleared : Screen.Below top Screen.blank (screen.play width clear) := below_of_clear hrow
  have hlength := writeCalls_length v width
  by_cases hstart : m ≤ 2
  · have htake : (v.calls width).take m = clear.take m := by
      rw [hcalls, List.append_assoc, List.take_append_of_le_length hstart]
    have hzero : v.rowAfter width m = 0 := if_pos hstart
    rw [htake, hzero]
    match m, hstart with
    | 0, _ => exact ⟨hrow, hground⟩
    | 1, _ => exact ⟨hrow, hground⟩
    | 2, _ => exact ⟨hrow, hground⟩
  · by_cases hwritten : m < 2 + (v.writeCalls width).length
    -- The display has been written, but not the blank that its full last row needs.
    · have hthree : m = 3 := by
        split at hlength <;> omega
      have htake : (v.calls width).take m = clear ++ [.write v.display] := by
        rw [hcalls, hthree]
        rfl
      obtain ⟨hpicture, hmode, -⟩ := below_write width hcleared hground hshown
      rw [htake, Screen.play_append, View.rowAfter, if_neg hstart, if_pos hthree,
        layout_shown hw hshown]
      exact ⟨hpicture.row, hmode⟩
    · obtain ⟨k, rfl⟩ := Nat.exists_eq_add_of_le (Nat.not_lt.mp hwritten)
      have htake : (v.calls width).take (2 + (v.writeCalls width).length + k) =
          clear ++ v.writeCalls width ++ (v.placingCalls width).take k := by
        have hdrawn : 2 + (v.writeCalls width).length = (clear ++ v.writeCalls width).length := by
          rw [List.length_append]
          rfl
        rw [hcalls, hdrawn, List.take_length_add_append]
      obtain ⟨hshows, hend⟩ := play_write hw hcleared hground hrow hshown
      have hk : k < (v.placingCalls width).length := by
        rw [calls_length] at hm
        omega
      obtain ⟨hplaced, hmode⟩ := play_placingCalls_take hk hend
      rw [htake, Screen.play_append, Screen.play_append, rowAfter_placing]
      exact ⟨hplaced, hmode.trans hshows.ground⟩

theorem view_shown (ht : Tidy setup.reliable) (hclean : Clean s.editor.buffer.text) (jump : Bool) :
    ∃ shown, Display.run .ground (viewOf setup jump s).display = (.ground, shown) := by
  have hplaced : Clean (placed setup jump s).text := by rwa [placed_text]
  obtain ⟨shown, hrun, -⟩ := View.display_shown ht hplaced s.size jump s.editor.lastDisplayRow
  exact ⟨shown, hrun⟩

/-- Where a redraw that failed has left the terminal cursor. -/
theorem StoppedAt.row {n : Nat} (h : StoppedAt setup jump s s' n) (hsize : s'.size = s.size)
    (ht : Tidy setup.reliable) (hw : 2 ≤ s.size.columns) (hclean : Clean s.editor.buffer.text)
    (hground : (screenOf start s).mode = .ground) (hrow : InRow start top s) :
    let back := (returnCalls s.editor.lastCursorRow).length
    let view := viewOf setup jump s
    (screenOf start s').mode = .ground ∧
      (InRow start top s' ↔
        n < back ∨ view.rowAfter s.size.width (n - back) = view.cursor.rows) := by
  have hwidth : 2 ≤ s.size.width := Nat.le_trans hw (Nat.le_max_left _ _)
  obtain ⟨shown, hrun⟩ := view_shown ht hclean jump
  obtain ⟨hback, hmode⟩ := play_returnCalls hrow s.size.width
  intro back view
  cases h with
  | back hn hcursor hdrawn =>
    have hscreen : screenOf start s' = screenOf start s := by rw [screenOf, hdrawn, hsize]; rfl
    rw [InRow, hscreen, hcursor]
    exact ⟨hground, iff_of_true hrow (Or.inl hn)⟩
  | @view m hn hm hcursor hdrawn =>
    obtain ⟨hreached, hground'⟩ := play_calls_take hwidth hm hback (hmode.trans hground) hrun
    have hscreen : screenOf start s' = ((screenOf start s).play s.size.width
        (returnCalls s.editor.lastCursorRow)).play s.size.width
          (((viewOf setup jump s).calls s.size.width).take m) := by
      rw [screenOf, hdrawn, hsize, Screen.play_append, Screen.play_append]
      rfl
    have hm' : n - back = m := by omega
    have hlater : ¬ n < back := by omega
    rw [InRow, hscreen, hreached, hcursor, hm']
    refine ⟨hground', ?_⟩
    simp only [hlater, false_or, Nat.add_left_cancel_iff]
    exact Iff.rfl

/-- A redraw that fails keeps the terminal in step if it fails on the way back to the prompt's row, or
when the terminal cursor happens to be on the row where it belongs in the end. Only then does the
next redraw start on the prompt's row. -/
theorem failed_redraw_inRow_iff (ht : Tidy setup.reliable) (hw : 2 ≤ s.size.columns)
    (hclean : Clean s.editor.buffer.text) (hground : (screenOf start s).mode = .ground)
    (hrow : InRow start top s) {e : Error} (hfailed : redraw setup jump s = .error e s') :
    ∃ n, s'.calls = s.calls + n + 1 ∧
      (InRow start top s' ↔ n < (returnCalls s.editor.lastCursorRow).length ∨
        (viewOf setup jump s).rowAfter s.size.width
            (n - (returnCalls s.editor.lastCursorRow).length) =
          (viewOf setup jump s).cursor.rows) ∧
      (s'.editor.lastCursorRow ≤ (screenOf start s').row → ∀ jump', ∃ next,
        redraw setup.reliable jump' s' = .ok () next ∧
        ((screenOf start next).origin = top ↔ InRow start top s')) := by
  have hstopped : Ends (redraw setup jump) s (fun _ _ => True) fun s' =>
      (∃ n, s'.calls = s.calls + n + 1 ∧ StoppedAt setup jump s s' n) ∧ Redrew s s' :=
    (ends_redraw_stopped.and (ends_redraw setup jump)).mono (fun _ _ _ => trivial) fun _ h => h
  unfold Ends at hstopped
  rw [hfailed] at hstopped
  obtain ⟨⟨n, hcalls, hstopped⟩, hredrew⟩ := hstopped
  obtain ⟨hground', hiff⟩ := hstopped.row hredrew.size ht hw hclean hground hrow
  refine ⟨n, hcalls, hiff, fun hle jump' => ?_⟩
  have hw' : 2 ≤ s'.size.columns := by rwa [hredrew.size]
  have hclean' : Clean s'.editor.buffer.text := by rwa [hredrew.text]
  have hstart : (screenOf start s').row =
      (screenOf start s').row - s'.editor.lastCursorRow + s'.editor.lastCursorRow :=
    (Nat.sub_add_cancel hle).symm
  obtain ⟨_, next, hnext, hdrawn⟩ :=
    (ends_redraw_drawnFrom ht jump' hw' hclean' hground' hstart).exists_ok
  refine ⟨next, hnext, ?_⟩
  rw [hdrawn.origin, InRow]
  omega

def belowRows (row : Nat) : Screen := { Screen.blank with row }

theorem tidy_plain : Tidy Setup.plain where
  quiet _ := rfl
  first := by decide
  continuation := by decide
  indentUnit := by decide
  presenter := faithful_plain

/-- A redraw that goes back from the second row and fails before it writes leaves the cursor on the
prompt's row and the editor with the second one in mind. -/
theorem write_failed_out_of_row : ∃ s s', Reachable (Setup.failing [18]) s ∧
    InRow (belowRows 3) 3 s ∧ redraw (Setup.failing [18]) false s = .error (.sink 18) s' ∧
    ¬ InRow (belowRows 3) 3 s' ∧
    ∃ next, redraw (Setup.failing [18]).reliable false s' = .ok () next ∧
      (screenOf (belowRows 3) next).origin ≠ 3 := by
  let setup := Setup.failing [18]
  let start := belowRows 3
  let opened : List Request := [.key (.ofChar 'a'), .key (.ofCtrl 'n')]
  let stopped (s : Session) : Bool :=
    let s' := ending (redraw setup false) s
    failure? (redraw setup false) s == some (.sink 18) && s'.calls == 19 &&
      decide (s'.editor.lastCursorRow ≤ (screenOf start s').row)
  have hrun : (create setup .standard [] []).toOption.any (fun created =>
      let s := (run setup opened created).2
      s.size == .standard && decide (Clean s.editor.buffer.text) &&
        (screenOf start s).mode == .ground && (screenOf start s).row == 3 + s.editor.lastCursorRow &&
        [s.calls, s.editor.lastCursorRow, (viewOf setup false s).cursor.rows] == [15, 1, 1] &&
        stopped s) = true := by
    decide +kernel
  obtain ⟨created, hcreated, hfacts⟩ := (Option.any_eq_true _ _).mp hrun
  have hreach := (Reachable.created (created_of_toOption hcreated)).run opened
  generalize (run setup opened created).2 = s at hfacts hreach
  simp only [Bool.and_eq_true, beq_iff_eq, decide_eq_true_eq, List.cons.injEq, and_true] at hfacts
  obtain ⟨⟨⟨⟨⟨hsize, hclean⟩, hmode⟩, hrow⟩, hcalls, hcursor, hview⟩, hstopped⟩ := hfacts
  cases hredraw : redraw setup false s with
  | ok _ s' => simp [stopped, failure?, hredraw] at hstopped
  | error e s' =>
    simp only [stopped, failure?, ending, hredraw, Bool.and_eq_true, beq_iff_eq,
      Option.some.injEq, decide_eq_true_eq] at hstopped
    obtain ⟨⟨rfl, hlast⟩, hle⟩ := hstopped
    have hw : 2 ≤ s.size.columns := by
      rw [hsize]
      decide
    have ht : Tidy setup.reliable := tidy_plain
    obtain ⟨n, hn, hiff, hnext⟩ := failed_redraw_inRow_iff ht hw hclean hmode hrow hredraw
    have hn3 : n = 3 := by omega
    rw [hcursor, hview, hn3] at hiff
    have hout : ¬ InRow start 3 s' := by
      intro h
      rcases hiff.mp h with hback | hreached
      · exact absurd hback (by decide)
      · exact Nat.zero_ne_one hreached
    obtain ⟨next, hdrawn, horigin⟩ := hnext hle false
    exact ⟨s, s', hreach, hrow, hredraw, hout, next, hdrawn, fun h => hout (horigin.mp h)⟩

/-- A line break is typed and its redraw fails. The next key clears the screen from the row above the
prompt on. -/
theorem row_above_overwritten : ∃ s s' last, Reachable (Setup.failing [10]) s ∧
    s.editor.isListening = true ∧ (screenOf (belowRows 3) s).origin = 3 ∧ InRow (belowRows 3) 3 s ∧
    step (Setup.failing [10]) (.key (.ofCtrl 'n')) s = (.failed (.sink 10), s') ∧
    ¬ InRow (belowRows 3) 3 s' ∧
    step (Setup.failing [10]) (.key (.ofChar 'b')) s' = (.done, last) ∧
    (screenOf (belowRows 3) last).origin = 2 := by
  let setup := Setup.failing [10]
  let start := belowRows 3
  have hrun : (create setup .standard [] []).toOption.any (fun created =>
      let s := (step setup (.key (.ofChar 'a')) created).2
      let failed := step setup (.key (.ofCtrl 'n')) s
      let last := step setup (.key (.ofChar 'b')) failed.2
      s.editor.isListening && (screenOf start s).origin == 3 &&
        (screenOf start s).row == 3 + s.editor.lastCursorRow && failed.1 == .failed (.sink 10) &&
        !((screenOf start failed.2).row == 3 + failed.2.editor.lastCursorRow) &&
        last.1 == .done && (screenOf start last.2).origin == 2) = true := by
    decide +kernel
  obtain ⟨created, hcreated, hfacts⟩ := (Option.any_eq_true _ _).mp hrun
  simp only [Bool.and_eq_true, beq_iff_eq, Bool.not_eq_true', beq_eq_false_iff_ne] at hfacts
  obtain ⟨⟨⟨⟨⟨⟨hlistening, horigin⟩, hrow⟩, hfailed⟩, hout⟩, hdone⟩, habove⟩ := hfacts
  have hreach := (Reachable.created (created_of_toOption hcreated)).requested (.key (.ofChar 'a'))
  exact ⟨_, _, _, hreach, hlistening, horigin, hrow, Prod.ext hfailed rfl, hout,
    Prod.ext hdone rfl, habove⟩

end Promptline.Session
