import Promptline.Display.Layout

/-!
How the pen moves. It counts the cells that it has passed, so the cell where it stands is found by
dividing by the width. A glyph takes it on, and no line feed takes it back.
-/

set_option autoImplicit false

namespace Promptline.Display

variable {s t : Text} {width : Nat} {c : Char}

theorem Pen.advance_rows (width : Nat) (pen : Pen) (c : Char) :
    pen.advance width c = ⟨(Pen.advance width ⟨pen.offset, 0⟩ c).offset,
      pen.rows + (Pen.advance width ⟨pen.offset, 0⟩ c).rows⟩ := by
  unfold Pen.advance
  split
  · simp only [Nat.zero_add, Nat.add_assoc]
  · split <;> rfl

theorem foldl_advance_rows (width : Nat) (t : Text) (pen : Pen) :
    t.foldl (Pen.advance width) pen =
      ⟨(t.foldl (Pen.advance width) ⟨pen.offset, 0⟩).offset,
        pen.rows + (t.foldl (Pen.advance width) ⟨pen.offset, 0⟩).rows⟩ := by
  induction t generalizing pen with
  | nil => rfl
  | cons c t ih =>
    have hstep := Pen.advance_rows width pen c
    rw [List.foldl_cons, ih, List.foldl_cons, ih (Pen.advance width ⟨pen.offset, 0⟩ c), hstep]
    simp only [Nat.add_assoc]

/-- A line feed starts a row of its own, so what follows it is laid out by itself. -/
theorem layoutShown_lineFeed (width : Nat) (s t : Text) :
    layoutShown width (s ++ '\n' :: t) = ⟨(layoutShown width t).columns,
      (layoutShown width s).rows + 1 + (layoutShown width t).rows⟩ := by
  have hfeed (pen : Pen) : pen.advance width '\n' = ⟨0, (pen.layout width).rows + 1⟩ := by
    simp only [Pen.advance, Pen.layout, if_true, Pen.mk.injEq, true_and]
    omega
  rw [layoutShown, List.foldl_append, List.foldl_cons, hfeed, foldl_advance_rows]
  simp only [layoutShown, Pen.layout, Nat.add_assoc]

theorem layoutShown_nil (width : Nat) : layoutShown width [] = ⟨0, 0⟩ := by
  simp [layoutShown, Pen.layout, Layout.wrap]

/-- Cells left blank at the end of a row count as passed. -/
def Pen.index (width : Nat) (pen : Pen) : Nat := pen.rows * width + pen.offset

theorem Pen.screen_eq (hw : 0 < width) (pen : Pen) :
    (pen.layout width).screen width = ⟨pen.index width % width, pen.index width / width⟩ := by
  have hmax : max width 1 = width := by omega
  have hmod : pen.index width % width = pen.offset % width := Nat.mul_add_mod' _ _ _
  have hdiv : pen.index width / width = pen.rows + pen.offset / width := by
    rw [Pen.index, Nat.mul_comm, Nat.mul_add_div hw]
  rw [hmod, hdiv, Pen.layout, Layout.wrap]
  split
  · rename_i hfull
    simp only [Bool.and_eq_true, decide_eq_true_eq] at hfull
    obtain ⟨hpos, hzero⟩ := hfull
    have hone : 1 ≤ pen.offset / width :=
      (Nat.one_le_div_iff hw).mpr (Nat.le_of_dvd hpos (Nat.dvd_of_mod_eq_zero hzero))
    simp only [Layout.screen, Layout.isPending, hmax, Nat.le_refl, decide_true, if_true, hzero,
      Layout.mk.injEq, true_and]
    omega
  · have hlt : ¬ width ≤ pen.offset % width := Nat.not_le.mpr (Nat.mod_lt _ hw)
    simp only [Layout.screen, Layout.isPending, hmax, hlt, decide_false, Bool.false_eq_true,
      if_false]

/-- The rows onto which a line wraps have room for all its columns. -/
theorem offset_le_wrap (hw : 0 < width) (offset : Nat) :
    offset ≤ (1 + (Layout.wrap width offset).rows) * width := by
  have hlt := Nat.lt_mul_div_succ offset hw
  rw [Nat.mul_comm] at hlt
  unfold Layout.wrap
  split
  · rename_i hfull
    simp only [Bool.and_eq_true, decide_eq_true_eq] at hfull
    have hexact := Nat.div_mul_cancel (Nat.dvd_of_mod_eq_zero hfull.2)
    have hone : 1 ≤ offset / width :=
      (Nat.one_le_div_iff hw).mpr (Nat.le_of_dvd hfull.1 (Nat.dvd_of_mod_eq_zero hfull.2))
    have hrows : 1 + (offset / width - 1) = offset / width := by omega
    rw [hrows]
    exact Nat.le_of_eq hexact.symm
  · rw [Nat.add_comm 1]
    exact Nat.le_of_lt hlt

theorem Pen.index_lt_advance (hc : c ≠ '\n') (width : Nat) (pen : Pen) :
    pen.index width < (pen.advance width c).index width := by
  have hpos := charWidth_pos c
  rw [Pen.advance, if_neg hc]
  split <;> simp only [Pen.index] <;> omega

/-- A line feed after a full row only makes up for the wrap that was pending. -/
theorem Pen.index_le_advance (hw : 0 < width) (pen : Pen) (c : Char) :
    pen.index width ≤ (pen.advance width c).index width := by
  by_cases hc : c = '\n'
  · have hroom := offset_le_wrap hw pen.offset
    rw [Pen.advance, if_pos hc]
    simp only [Pen.index, Nat.add_assoc, Nat.add_mul, Nat.add_zero] at hroom ⊢
    omega
  · exact Nat.le_of_lt (Pen.index_lt_advance hc width pen)

theorem index_le_foldl (hw : 0 < width) (t : Text) (pen : Pen) :
    pen.index width ≤ (t.foldl (Pen.advance width) pen).index width := by
  induction t generalizing pen with
  | nil => exact Nat.le_refl _
  | cons c t ih => exact Nat.le_trans (Pen.index_le_advance hw pen c) (ih _)

theorem index_lt_foldl (hw : 0 < width) (h : ∃ c ∈ t, c ≠ '\n') (pen : Pen) :
    pen.index width < (t.foldl (Pen.advance width) pen).index width := by
  obtain ⟨c, hmem, hc⟩ := h
  obtain ⟨before, after, rfl⟩ := List.append_of_mem hmem
  rw [List.foldl_append, List.foldl_cons]
  calc pen.index width
      ≤ (before.foldl (Pen.advance width) pen).index width := index_le_foldl hw before pen
    _ < _ := Pen.index_lt_advance hc width _
    _ ≤ _ := index_le_foldl hw after _

/-- More text does not move the end of a text up. -/
theorem layoutShown_screen_le (hw : 0 < width) (s t : Text) :
    ((layoutShown width s).screen width).rows ≤
      ((layoutShown width (s ++ t)).screen width).rows := by
  rw [layoutShown, layoutShown, List.foldl_append, Pen.screen_eq hw, Pen.screen_eq hw]
  exact Nat.div_le_div_right (index_le_foldl hw t _)

theorem Layout.screen_rows (l : Layout) (width : Nat) :
    (l.screen width).rows = l.rows + (l.isPending width).toNat := by
  cases hpending : l.isPending width <;> simp [Layout.screen, hpending]

theorem Layout.screen_rows_le (l : Layout) (width : Nat) :
    (l.screen width).rows ≤ l.rows + 1 := by
  rw [Layout.screen_rows]
  exact Nat.add_le_add_left (Bool.toNat_le _) _

end Promptline.Display
