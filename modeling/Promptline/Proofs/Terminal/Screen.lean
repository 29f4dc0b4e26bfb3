import Promptline.Display.Layout
import Promptline.Terminal.Sequence

/-!
A reference terminal. It has rows without end and wraps late: a row that is full is left only when the
next glyph comes. A glyph of two columns that does not fit in the rest of its row goes to the next
one. Escape sequences and control characters other than the line feed show nothing.
-/

set_option autoImplicit false

namespace Promptline.Terminal

open Display

/-- What each cell shows: a character, or nothing of its own where a glyph of two columns reaches in
from the left. A cell that nothing was written to shows a blank. -/
abbrev Cells := Nat → Nat → Option Char

structure Screen where
  cells : Cells
  row : Nat
  /-- Equals the width on a full row that has not been left yet. -/
  column : Nat
  /-- Where in an escape sequence the text written so far has ended. -/
  mode : Mode
  /-- The row from which the screen was last cleared. -/
  origin : Nat

namespace Screen

def blank : Screen := ⟨fun _ _ => some ' ', 0, 0, .ground, 0⟩

def Cells.place (cells : Cells) (row column : Nat) (c : Char) : Cells := fun i j =>
  if i = row ∧ j = column then some c
  else if i = row ∧ j = column + 1 ∧ charWidth c = 2 then none
  else cells i j

def put (width : Nat) (s : Screen) (c : Char) : Screen :=
  if c = '\n' then { s with row := s.row + 1, column := 0 }
  else if s.column + charWidth c ≤ width then
    { s with
      cells := Cells.place s.cells s.row s.column c
      column := s.column + charWidth c }
  else
    { s with
      cells := Cells.place s.cells (s.row + 1) 0 c
      row := s.row + 1
      column := charWidth c }

def write (width : Nat) (s : Screen) (t : Text) : Screen :=
  { (run s.mode t).2.foldl (put width) s with mode := (run s.mode t).1 }

/-- The column of the cursor, which stays on the last cell of a full row. -/
def cursorColumn (width : Nat) (s : Screen) : Nat := min s.column (width - 1)

def exec (width : Nat) (s : Screen) : Call → Screen
  | .cursorTo column row =>
    { s with row := row.getD s.row, column := min column (width - 1) }
  | .moveCursor columns rows =>
    { s with
      row := (s.row + rows).toNat
      column := min (s.cursorColumn width + columns).toNat (width - 1) }
  | .clearToEnd =>
    { s with
      cells := fun i j =>
        if s.row < i ∨ i = s.row ∧ s.cursorColumn width ≤ j then some ' ' else s.cells i j
      origin := s.row }
  | .write t => s.write width t
  | .flush => s

def play (width : Nat) (s : Screen) (calls : List Call) : Screen := calls.foldl (exec width) s

def picture (width : Nat) (shown : Text) : Screen := shown.foldl (put width) blank

theorem play_append (width : Nat) (s : Screen) (first rest : List Call) :
    s.play width (first ++ rest) = (s.play width first).play width rest :=
  List.foldl_append

theorem play_lineFeed {s : Screen} (h : s.mode = .ground) (width : Nat) :
    s.play width [.write ['\n'], .flush] = { s with row := s.row + 1, column := 0 } := by
  change s.write width ['\n'] = _
  rw [write, h]
  rfl

structure Below (top : Nat) (p s : Screen) : Prop where
  row : s.row = top + p.row
  column : s.column = p.column
  cells : ∀ i j, s.cells (top + i) j = p.cells i j

variable {width top : Nat} {p s : Screen}

theorem Below.place (h : Below top p s) (row column : Nat) (c : Char) (i j : Nat) :
    Cells.place s.cells (top + row) column c (top + i) j = Cells.place p.cells row column c i j := by
  simp only [Cells.place, Nat.add_left_cancel_iff, h.cells]

theorem Below.put (h : Below top p s) (width : Nat) (c : Char) :
    Below top (p.put width c) (s.put width c) := by
  unfold Screen.put
  rw [h.row, h.column]
  split
  · exact ⟨rfl, rfl, h.cells⟩
  · split
    · exact ⟨rfl, rfl, fun i j => h.place p.row p.column c i j⟩
    · exact ⟨rfl, rfl, fun i j => h.place (p.row + 1) 0 c i j⟩

theorem Below.foldl (h : Below top p s) (width : Nat) (shown : Text) :
    Below top (shown.foldl (Screen.put width) p) (shown.foldl (Screen.put width) s) := by
  induction shown generalizing p s with
  | nil => exact h
  | cons c rest ih => exact ih (h.put width c)

theorem put_origin (width : Nat) (s : Screen) (c : Char) :
    (s.put width c).origin = s.origin := by
  unfold Screen.put
  split
  · rfl
  · split <;> rfl

theorem foldl_put_origin (width : Nat) (s : Screen) (shown : Text) :
    (shown.foldl (Screen.put width) s).origin = s.origin := by
  induction shown generalizing s with
  | nil => rfl
  | cons c rest ih => exact (ih _).trans (put_origin width s c)

def Fresh (s : Screen) : Prop := ∀ i j, s.row < i → s.cells i j = some ' '

theorem Fresh.put (h : Fresh s) (width : Nat) (c : Char) : Fresh (s.put width c) := by
  intro i j
  unfold Screen.put
  split
  · intro hi
    exact h i j (Nat.lt_of_succ_lt hi)
  · split
    · intro hi
      have hrow : i ≠ s.row := Nat.ne_of_gt hi
      simp only [Cells.place, hrow, false_and, if_false]
      exact h i j hi
    · intro hi
      have hrow : i ≠ s.row + 1 := Nat.ne_of_gt hi
      simp only [Cells.place, hrow, false_and, if_false]
      exact h i j (Nat.lt_of_succ_lt hi)

theorem picture_fresh (width : Nat) (shown : Text) : Fresh (picture width shown) := by
  have hfold : ∀ s : Screen, Fresh s → Fresh (shown.foldl (Screen.put width) s) := by
    induction shown with
    | nil => exact fun _ h => h
    | cons c rest ih => exact fun s h => ih _ (h.put width c)
  exact hfold blank fun _ _ _ => rfl

theorem Below.fresh (h : Below top p s) (hp : Fresh p) : Fresh s := by
  intro i j hi
  rw [h.row] at hi
  obtain ⟨down, rfl⟩ := Nat.exists_eq_add_of_lt (Nat.lt_of_le_of_lt (Nat.le_add_right _ _) hi)
  rw [Nat.add_assoc, h.cells]
  exact hp _ _ (by omega)

/-- A blank after a full row shows nothing but takes the cursor to the next row. -/
theorem put_blank_of_full (h : Fresh s) (hfull : width ≤ s.column) :
    s.put width ' ' = { s with row := s.row + 1, column := 1 } := by
  have hfit : ¬ s.column + charWidth ' ' ≤ width := by
    have hpos := charWidth_pos ' '
    omega
  have hcells : Cells.place s.cells (s.row + 1) 0 ' ' = s.cells := by
    funext i j
    simp only [Cells.place]
    split
    · rename_i hij
      rw [hij.1]
      exact (h _ _ (Nat.lt_succ_self _)).symm
    · split
      · rename_i hwide
        exact absurd hwide.2.2 (by decide)
      · rfl
  rw [Screen.put, if_neg (by decide), if_neg hfit, hcells]
  rfl

/-- The pen is where the cursor is, `down` rows below the start of its line. -/
structure Follows (width : Nat) (s : Screen) (pen : Pen) (down : Nat) : Prop where
  row : s.row = pen.rows + down
  offset : pen.offset = down * width + s.column
  within : s.column ≤ width
  start : s.column = 0 → down = 0

theorem wrap_eq {down column : Nat} (hc : column ≤ width) (h0 : column = 0 → down = 0) :
    Layout.wrap width (down * width + column) = ⟨column, down⟩ := by
  rcases Nat.eq_zero_or_pos column with rfl | hpos
  · rw [h0 rfl]
    simp [Layout.wrap]
  · have hwidth : 0 < width := Nat.lt_of_lt_of_le hpos hc
    have hoffset : 0 < down * width + column := Nat.add_pos_right _ hpos
    have hdiv : (down * width + column) / width = down + column / width := by
      rw [Nat.mul_comm, Nat.mul_add_div hwidth]
    rw [Layout.wrap, hdiv]
    rcases Nat.lt_or_eq_of_le hc with hlt | rfl
    · rw [Nat.mul_add_mod_of_lt hlt, Nat.div_eq_of_lt hlt]
      simp [Nat.ne_of_gt hpos]
    · rw [Nat.mul_add_mod', Nat.mod_self, Nat.div_self hwidth]
      simp [hoffset]

theorem charWidth_le_two (c : Char) : charWidth c ≤ 2 := by
  unfold charWidth
  split <;> decide

theorem charWidth_cases (c : Char) : charWidth c = 1 ∨ charWidth c = 2 := by
  unfold charWidth
  split
  · exact Or.inr rfl
  · exact Or.inl rfl

theorem straddles_iff {down column : Nat} (hw : 2 ≤ width) (hc : column ≤ width) :
    (down * width + column + 1) % width = 0 ↔ column + 1 = width := by
  rw [Nat.add_assoc, Nat.mul_add_mod']
  rcases Nat.lt_or_ge (column + 1) width with hlt | hge
  · rw [Nat.mod_eq_of_lt hlt]
    omega
  · rcases Nat.eq_or_lt_of_le hc with rfl | hlt
    · rw [Nat.add_mod_left, Nat.mod_eq_of_lt hw]
      omega
    · have heq : column + 1 = width := by omega
      rw [heq, Nat.mod_self]
      omega

theorem Follows.put {pen : Pen} {down : Nat} (h : Follows width s pen down) {c : Char}
    (hc : charWidth c ≤ width) :
    ∃ down', Follows width (s.put width c) (pen.advance width c) down' := by
  have hrow := h.row
  have hoffset := h.offset
  have hwithin := h.within
  by_cases hfeed : c = '\n'
  · refine ⟨0, ?_⟩
    rw [Screen.put, if_pos hfeed, Pen.advance, if_pos hfeed, hoffset, wrap_eq hwithin h.start]
    refine ⟨?_, ?_, Nat.zero_le _, fun _ => rfl⟩
    · simp only
      omega
    · simp only
      omega
  · rw [Screen.put, if_neg hfeed, Pen.advance, if_neg hfeed]
    rcases charWidth_cases c with hone | htwo
    · simp only [hone, Nat.reduceEqDiff, decide_false, Bool.false_and, Bool.false_eq_true, if_false]
      split
      · refine ⟨down, hrow, ?_, ?_, ?_⟩ <;> simp only <;> omega
      · have hfull : s.column = width := by omega
        refine ⟨down + 1, ?_, ?_, ?_, ?_⟩ <;> simp only [Nat.succ_mul] <;> omega
    · rw [htwo] at hc ⊢
      -- On the last column the terminal wraps early, and the pen skips the column.
      have hedge : (pen.offset + 1) % width = 0 ↔ s.column + 1 = width := by
        rw [hoffset]
        exact straddles_iff hc hwithin
      by_cases hlast : s.column + 1 = width
      · rw [if_neg (by omega), if_pos (by simp [hedge.mpr hlast])]
        refine ⟨down + 1, ?_, ?_, ?_, ?_⟩ <;> simp only [Nat.succ_mul] <;> omega
      · have hinside : ¬ (pen.offset + 1) % width = 0 := fun h => hlast (hedge.mp h)
        simp only [hinside, decide_true, decide_false, Bool.and_false, Bool.false_eq_true, if_false]
        split
        · refine ⟨down, ?_, ?_, ?_, ?_⟩ <;> simp only <;> omega
        · refine ⟨down + 1, ?_, ?_, ?_, ?_⟩ <;> simp only [Nat.succ_mul] <;> omega

theorem Follows.foldl {pen : Pen} {down : Nat} (h : Follows width s pen down) {shown : Text}
    (hshown : ∀ c ∈ shown, charWidth c ≤ width) :
    ∃ down', Follows width (shown.foldl (Screen.put width) s)
      (shown.foldl (Pen.advance width) pen) down' := by
  induction shown generalizing s pen down with
  | nil => exact ⟨down, h⟩
  | cons c rest ih =>
    obtain ⟨down', hput⟩ := h.put (hshown c List.mem_cons_self)
    exact ih hput fun d hd => hshown d (List.mem_cons_of_mem _ hd)

theorem picture_follows {shown : Text} (h : ∀ c ∈ shown, charWidth c ≤ width) :
    ∃ down, Follows width (picture width shown) (shown.foldl (Pen.advance width) ⟨0, 0⟩) down := by
  have hstart : Follows width blank ⟨0, 0⟩ 0 :=
    ⟨rfl, (Nat.zero_mul _).symm, Nat.zero_le _, fun _ => rfl⟩
  exact hstart.foldl h

/-- The layout of a text is where the terminal ends up that writes it, on any width that has room for
its glyphs. -/
theorem picture_layout {shown : Text} (h : ∀ c ∈ shown, charWidth c ≤ width) :
    layoutShown width shown = ⟨(picture width shown).column, (picture width shown).row⟩ := by
  obtain ⟨down, hend⟩ := picture_follows h
  rw [layoutShown, Pen.layout, hend.offset, wrap_eq hend.within hend.start]
  exact congrArg _ hend.row.symm

/-- No glyph goes past the edge. -/
theorem picture_column_le {shown : Text} (h : ∀ c ∈ shown, charWidth c ≤ width) :
    (picture width shown).column ≤ width := by
  obtain ⟨down, hend⟩ := picture_follows h
  exact hend.within

theorem charWidth_le_of_narrow {c : Char} (hw : 1 ≤ width) (h : isFullWidth c = false) :
    charWidth c ≤ width := by
  rw [charWidth, h]
  exact hw

/-- A text with escape sequences is laid out where the terminal ends up that shows what is left of it,
and is pending where that has filled a row and not left it. On fewer than two columns there is no room
for glyphs of two. -/
theorem layout_eq_picture {t : Text} (h : 2 ≤ width ∨ ∀ c ∈ strip t, isFullWidth c = false) :
    layout width t = ⟨(picture (max width 1) (strip t)).column,
        (picture (max width 1) (strip t)).row⟩ ∧
      ((layout width t).isPending width = true ↔
        (picture (max width 1) (strip t)).column = max width 1) := by
  have hroom : ∀ c ∈ strip t, charWidth c ≤ max width 1 := by
    intro c hc
    rcases h with hwide | hnarrow
    · exact Nat.le_trans (charWidth_le_two c) (Nat.le_trans hwide (Nat.le_max_left _ _))
    · exact charWidth_le_of_narrow (Nat.le_max_right _ _) (hnarrow c hc)
  have hlayout : layout width t = _ := picture_layout hroom
  have hedge := picture_column_le hroom
  refine ⟨hlayout, ?_⟩
  rw [hlayout, Layout.isPending, decide_eq_true_eq]
  exact ⟨fun hfull => Nat.le_antisymm hedge hfull, fun hfull => Nat.le_of_eq hfull.symm⟩

/-- A glyph of two columns that would straddle the edge, in colour, and a row that is filled before a
line feed: neither the column left over nor the pending wrap costs a row of its own. -/
theorem straddling_glyph_layout :
    let t := "\x1b[1mab漢\x1b[0mc\n漢d".toList
    (2 ≤ 3 ∨ ∀ c ∈ strip t, isFullWidth c = false) ∧
      layout 3 t = ⟨(picture 3 (strip t)).column, (picture 3 (strip t)).row⟩ ∧
      layout 3 t = ⟨3, 2⟩ ∧ (layout 3 t).isPending 3 = true := by
  intro t
  have hwide : 2 ≤ 3 ∨ ∀ c ∈ strip t, isFullWidth c = false := Or.inl (by decide)
  have hcolumn : (picture (max 3 1) (strip t)).column = max 3 1 := by decide
  have hrow : (picture (max 3 1) (strip t)).row = 2 := by decide
  obtain ⟨hlayout, hpending⟩ := layout_eq_picture hwide
  refine ⟨hwide, hlayout, ?_, hpending.mpr hcolumn⟩
  rw [hlayout, hcolumn, hrow]
  rfl

end Screen
end Promptline.Terminal
