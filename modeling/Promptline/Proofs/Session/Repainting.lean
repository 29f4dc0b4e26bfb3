import Promptline.Proofs.Session.Retry
import Promptline.Proofs.Session.Window

set_option autoImplicit false

namespace Promptline.Session

open Display Keys Terminal

variable {setup : Setup} {jump : Bool} {s s' t : Session} {height textEnd cursor last : Nat}

def redraws (setup : Setup) (jump : Bool) : Nat → Act Unit
  | 0 => pure ()
  | n + 1 => do
    redraw setup jump
    redraws setup jump n

def redrawCalls (setup : Setup) (jump : Bool) (s : Session) : List Call :=
  returnCalls s.editor.lastCursorRow ++ (viewOf setup jump s).calls s.size.width

/-- The window of a text stays where the cursor has once taken it. -/
theorem lastRowFor_idem (hh : 0 < height) (hc : cursor ≤ textEnd) (jump : Bool) (last : Nat) :
    lastRowFor jump height textEnd cursor (lastRowFor jump height textEnd cursor last) =
      lastRowFor jump height textEnd cursor last := by
  have hwindow := lastRowFor_bounds hh hc jump last
  have hend := lastRowFor_le jump height textEnd cursor last
  by_cases hclipped : height ≤ textEnd
  · cases jump with
    | true => simp [lastRowFor, hclipped]
    | false =>
      generalize lastRowFor false height textEnd cursor last = row at hwindow hend ⊢
      rw [lastRowFor, if_pos hclipped, if_neg (by simpa using hwindow.1), if_neg (by omega)]
      exact Nat.min_eq_right hend
  · rw [lastRowFor, lastRowFor, if_neg hclipped, if_neg hclipped]

theorem drawAll_append (setup : Setup) (cs cs' : List Call) :
    drawAll setup (cs ++ cs') = drawAll setup cs >>= fun _ => drawAll setup cs' := by
  induction cs with
  | nil => rfl
  | cons c cs ih => rw [List.cons_append, drawAll, drawAll, ih, bind_assoc]

/-- The cursor is in its place, and the rows that the editor remembers are those of the view. -/
structure Painted (setup : Setup) (jump : Bool) (s : Session) : Prop where
  buffer : placed setup jump s = s.editor.buffer
  lastRow : (viewOf setup jump s).lastRow = s.editor.lastDisplayRow
  cursorRow : (viewOf setup jump s).cursor.rows = s.editor.lastCursorRow

/-- What is drawn does not change what a redraw would draw. -/
theorem Drew.same (h : Drew s t) (setup : Setup) (jump : Bool) :
    (Painted setup jump s → Painted setup jump t) ∧
      redrawCalls setup jump t = redrawCalls setup jump s := by
  unfold Drew at h
  rw [h]
  exact ⟨fun hp => ⟨hp.buffer, hp.lastRow, hp.cursorRow⟩, rfl⟩

/-- A redraw of a painted session is nothing but its calls. -/
theorem Painted.redraw_eq (h : Painted setup jump s) :
    redraw setup jump s = drawAll setup (redrawCalls setup jump s) s := by
  have hplaced : { s with editor := { s.editor with
      buffer := placed setup jump s, lastDisplayRow := (viewOf setup jump s).lastRow } } = s := by
    rw [h.buffer, h.lastRow]
  have hremembered {a : Session} (ha : Drew s a) : { a with editor := { a.editor with
      lastCursorRow := (viewOf setup jump s).cursor.rows } } = a := by
    unfold Drew at ha
    rw [h.cursorRow, ha]
  rw [redraw, get_bind, redrawCalls, drawAll_append]
  change (drawAll setup (returnCalls s.editor.lastCursorRow) >>= fun _ =>
    modifyEditor (fun e => { e with lastCursorRow := (viewOf setup jump s).cursor.rows }) >>= fun _ =>
      drawAll setup ((viewOf setup jump s).calls s.size.width)) { s with editor := { s.editor with
        buffer := placed setup jump s, lastDisplayRow := (viewOf setup jump s).lastRow } } = _
  rw [hplaced]
  simp only [bind, EStateM.bind]
  cases hback : drawAll setup (returnCalls s.editor.lastCursorRow) s with
  | error e a => rfl
  | ok _ a =>
    have ha : Drew s a := (ends_drawAll setup _).of_ok hback
    change drawAll setup _ { a with editor := { a.editor with
      lastCursorRow := (viewOf setup jump s).cursor.rows } } = _
    rw [hremembered ha]

/-- The window that a view has is kept by the next one. -/
theorem ofBuffer_idem (setup : Setup) (size : Size) (jump : Bool) (last : Nat) (b : Buffer) :
    View.ofBuffer setup size jump (View.ofBuffer setup size jump last b).lastRow b =
      View.ofBuffer setup size jump last b := by
  have hcursor := Context.layoutOf_screen_le ⟨setup.config.prompts, size.width⟩ b.before b.after
  have hidem := lastRowFor_idem (size_height_pos size) hcursor jump last
  unfold View.ofBuffer
  dsimp only [Buffer.textLayout, Buffer.cursorLayout, Buffer.text]
  rw [hidem]

theorem placed_idem {q : Session} (jump : Bool) (hbuffer : q.editor.buffer = placed setup jump s)
    (hsize : q.size = s.size) : placed setup jump q = placed setup jump s := by
  unfold placed context at hbuffer ⊢
  rw [hbuffer, hsize]
  cases jump with
  | false => rfl
  | true =>
    simp [Buffer.moveToEnd, Buffer.updateScreenRow, Buffer.text, Buffer.cursorRow,
      Buffer.cursorLayout]

/-- After a redraw the session is painted, and the view of it is the one that has been drawn. -/
theorem painted_of_redraw (hredraw : redraw setup jump s = .ok () s') :
    Painted setup jump s' ∧ redrawCalls setup jump s' = returnCalls s'.editor.lastCursorRow ++
      (viewOf setup jump s).calls s.size.width := by
  have hsize : s'.size = s.size := (ends_redraw setup jump).of_ok hredraw |>.size
  have hbuffer := (ends_redraw_placed jump).of_ok hredraw
  obtain ⟨-, hcursor, hlast⟩ := (ends_redraw_drawn jump).of_ok hredraw
  have hplaced := placed_idem jump hbuffer hsize
  have hview : viewOf setup jump s' = viewOf setup jump s := by
    rw [viewOf, hplaced, hlast, hsize]
    exact ofBuffer_idem setup s.size jump s.editor.lastDisplayRow (placed setup jump s)
  refine ⟨⟨hplaced.trans hbuffer.symm, ?_, ?_⟩, by rw [redrawCalls, hview, hsize]⟩
  · rw [hview, hlast]
  · rw [hview, hcursor]

/-- A painted session is left as it is by redraws, however many there are and wherever they fail: they
only make their calls over and over. -/
theorem Painted.ends_redraws (h : Painted setup jump s) (n : Nat) :
    Ends (redraws setup jump n) s
      (fun _ t => Drew s t ∧
        t.drawn = s.drawn ++ (List.replicate n (redrawCalls setup jump s)).flatten)
      fun t => Drew s t ∧ Refused setup s t ∧ ∃ m < n, ∃ k < (redrawCalls setup jump s).length,
        t.drawn = s.drawn ++ (List.replicate m (redrawCalls setup jump s)).flatten ++
          (redrawCalls setup jump s).take k := by
  -- Over the number of redraws; a painted session stays painted while it is drawn.
  induction n generalizing s with
  | zero => exact ⟨Drew.refl s, (List.append_nil _).symm⟩
  | succ n ih =>
    have hfirst : Ends (redraw setup jump) s
        (fun _ a => (Drew s a ∧ Served setup s a) ∧ a.drawn = s.drawn ++ redrawCalls setup jump s)
        fun a => (Drew s a ∧ Refused setup s a) ∧ ∃ k < (redrawCalls setup jump s).length,
          a.drawn = s.drawn ++ (redrawCalls setup jump s).take k := by
      unfold Ends
      rw [h.redraw_eq]
      refine (((ends_drawAll setup _).and (ends_drawAll_calls _)).and (ends_drawAll_take _)).mono ?_ ?_
      · rintro _ a ⟨ha, rfl⟩
        exact ⟨ha, rfl⟩
      · rintro a ⟨ha, k, hk, rfl⟩
        exact ⟨ha, k, hk, rfl⟩
    rw [redraws, ends_bind]
    refine hfirst.mono ?_ ?_
    · rintro _ a ⟨⟨hdrew, hserved⟩, hdrawn⟩
      obtain ⟨hpainted, hsame⟩ := hdrew.same setup jump
      have hrest := ih (hpainted h)
      rw [hsame, hdrawn] at hrest
      refine hrest.mono ?_ ?_
      · rintro _ t ⟨ht, hagain⟩
        refine ⟨hdrew.trans ht, ?_⟩
        rw [hagain, List.replicate_succ, List.flatten_cons, List.append_assoc]
      · rintro t ⟨ht, hrefused, m, hm, k, hk, hagain⟩
        refine ⟨hdrew.trans ht, hserved.refused hrefused, m + 1, Nat.succ_lt_succ hm, k, hk, ?_⟩
        rw [hagain, List.replicate_succ, List.flatten_cons, List.append_assoc s.drawn]
    · rintro a ⟨⟨hdrew, hrefused⟩, k, hk, hdrawn⟩
      refine ⟨hdrew, hrefused, 0, Nat.succ_pos n, k, hk, ?_⟩
      rw [hdrawn, List.replicate_zero, List.flatten_nil, List.append_nil]

/-- A redraw is idempotent. Those that follow it differ from it at most in the way up to the prompt's
row, and among each other in nothing: they draw what it has drawn and change nothing else in the
session. One of them fails only if one of its calls does. -/
theorem redraw_idempotent (hredraw : redraw setup jump s = .ok () s') :
    let calls := (viewOf setup jump s).calls s.size.width
    let again := returnCalls s'.editor.lastCursorRow ++ calls
    s'.drawn = s.drawn ++ (returnCalls s.editor.lastCursorRow ++ calls) ∧
    ∀ n, Ends (redraws setup jump n) s'
      (fun _ t => Drew s' t ∧ t.drawn = s'.drawn ++ (List.replicate n again).flatten)
      fun t => Drew s' t ∧ Refused setup s' t ∧ ∃ m < n, ∃ k < again.length,
        t.drawn = s'.drawn ++ (List.replicate m again).flatten ++ again.take k := by
  intro calls again
  obtain ⟨hpainted, hagain⟩ := painted_of_redraw hredraw
  obtain ⟨hdrawn, -, -⟩ := (ends_redraw_drawn jump).of_ok hredraw
  refine ⟨hdrawn.trans (List.append_assoc _ _ _), fun n => ?_⟩
  have hredraws := hpainted.ends_redraws n
  rwa [hagain] at hredraws

/-- The terminal gets narrower and lower, so that the first redraw finds the cursor on another row than
remembered and clips the text. The next two repeat each other. -/
theorem repainted_after_resize : ∃ s s' t, Reachable Setup.bold s ∧
    redraw Setup.bold false s = .ok () s' ∧ redraws Setup.bold false 2 s' = .ok () t ∧
    s.editor.lastCursorRow = 2 ∧ s'.editor.lastCursorRow = 3 ∧
    s.editor.lastDisplayRow = 5 ∧ s'.editor.lastDisplayRow = 4 ∧
    t.editor = s'.editor ∧ ∃ calls,
      s'.drawn = s.drawn ++ .moveCursor 0 (-2) :: calls ∧
      t.drawn = s'.drawn ++ .moveCursor 0 (-3) :: calls ++ .moveCursor 0 (-3) :: calls := by
  let pressed : List Request := [.key (.ofText "1\n2\n3\n4\n5\n6".toList), .key (.ofName .up),
    .key (.ofName .up), .key (.ofName .up), .resize ⟨3, 2⟩]
  have hrun : (create Setup.bold ⟨10, 4⟩ [] []).toOption.any (fun created =>
      let s := (run Setup.bold pressed created).2
      s.editor.lastCursorRow == 2 && s.editor.lastDisplayRow == 5 &&
        (viewOf Setup.bold false s).cursor.rows == 3 && (viewOf Setup.bold false s).lastRow == 4) =
      true := by
    decide +kernel
  obtain ⟨created, hcreated, hfacts⟩ := (Option.any_eq_true _ _).mp hrun
  have hreach := (Reachable.created (created_of_toOption hcreated)).run pressed
  generalize (run Setup.bold pressed created).2 = s at hfacts hreach
  simp only [Bool.and_eq_true, beq_iff_eq] at hfacts
  obtain ⟨⟨⟨hrow, hlast⟩, hcursor⟩, hview⟩ := hfacts
  obtain ⟨_, s', hredraw, -⟩ := (ends_redraw_quiet (s := s) tidy_bold.quiet false).exists_ok
  obtain ⟨-, hcursor', hlast'⟩ := (ends_redraw_drawn false).of_ok hredraw
  rw [hcursor] at hcursor'
  obtain ⟨hfirst, hagain⟩ := redraw_idempotent hredraw
  rw [hrow] at hfirst
  obtain ⟨_, t, ht, hdrew, hdrawn⟩ := ((hagain 2).mono (fun _ _ h => h) fun _ h => by
    exact absurd h.2.1.fails Bool.false_ne_true).exists_ok
  rw [hcursor', List.replicate_succ, List.replicate_one, List.flatten_cons, List.flatten_singleton,
    ← List.append_assoc] at hdrawn
  unfold Drew at hdrew
  exact ⟨s, s', t, hreach, hredraw, ht, hrow, hcursor', hlast, hlast'.trans hview, by rw [hdrew],
    _, hfirst, hdrawn⟩

end Promptline.Session
