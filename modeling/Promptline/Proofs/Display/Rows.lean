import Mathlib.Data.List.Forall2
import Promptline.Proofs.Display.Order
import Promptline.Proofs.Terminal.Screen

set_option autoImplicit false

namespace Promptline.Display

variable {s t u : Text} {qs us ls : List Text} {p : Prompts} {style : Text → Text}
  {width row limit k : Nat}

def startRow (width : Nat) : List Text → Nat → Nat
  | _, 0 => 0
  | [], _ + 1 => 0
  | u :: us, k + 1 => (layoutShown width u).rows + 1 + startRow width us k

theorem startRow_zero (width : Nat) (us : List Text) : startRow width us 0 = 0 := by
  cases us <;> rfl

/-- The row on which line number `k` ends, with the blank that would follow it on a full row. -/
def endRow (width : Nat) (us : List Text) (k : Nat) : Nat :=
  startRow width us k + ((layoutShown width (us.getD k [])).screen width).rows

theorem startRow_succ (hk : k < us.length) :
    startRow width us (k + 1) =
      startRow width us k + ((layoutShown width (us.getD k [])).rows + 1) := by
  induction us generalizing k with
  | nil => cases hk
  | cons u us ih =>
    cases k with
    | zero => simp [startRow]
    | succ k =>
      rw [startRow, ih (Nat.lt_of_succ_lt_succ hk), startRow, List.getD_cons_succ]
      exact (Nat.add_assoc _ _ _).symm

theorem startRow_le {m : Nat} (hkm : k ≤ m) : startRow width us k ≤ startRow width us m := by
  induction us generalizing k m with
  | nil => cases k <;> exact Nat.zero_le _
  | cons u us ih =>
    cases k with
    | zero => exact Nat.zero_le _
    | succ k =>
      obtain ⟨m, rfl⟩ : ∃ j, m = j + 1 := ⟨m - 1, by omega⟩
      exact Nat.add_le_add_left (ih (Nat.le_of_succ_le_succ hkm)) _

/-- The rows before a line are those of the lines above it. -/
theorem startRow_append (width : Nat) (us vs : List Text) :
    startRow width (us ++ vs) us.length = startRow width us us.length := by
  induction us with
  | nil => simp [startRow_zero]
  | cons u us ih => exact congrArg (_ + ·) ih

theorem endRow_append (width : Nat) (us : List Text) (u : Text) (vs : List Text) :
    endRow width (us ++ u :: vs) us.length =
      startRow width us us.length + ((layoutShown width u).screen width).rows := by
  rw [endRow, startRow_append]
  simp

theorem startRow_le_endRow (width : Nat) (us : List Text) (k : Nat) :
    startRow width us k ≤ endRow width us k := Nat.le_add_right _ _

theorem endRow_le {m : Nat} (hkm : k ≤ m) (hm : m < us.length) :
    endRow width us k ≤ endRow width us m := by
  rcases Nat.eq_or_lt_of_le hkm with rfl | hlt
  · exact Nat.le_refl _
  · have hk : k < us.length := Nat.lt_trans hlt hm
    calc endRow width us k
        ≤ startRow width us k + ((layoutShown width (us.getD k [])).rows + 1) :=
          Nat.add_le_add_left (Layout.screen_rows_le _ width) _
      _ = startRow width us (k + 1) := (startRow_succ hk).symm
      _ ≤ startRow width us m := startRow_le hlt
      _ ≤ endRow width us m := startRow_le_endRow width us m

theorem endRow_of_nil (h : us.getD k [] = []) : endRow width us k = startRow width us k := by
  rw [endRow, h, layoutShown_nil, Layout.screen_rows]
  have hpending : (⟨0, 0⟩ : Layout).isPending width = false :=
    decide_eq_false (Nat.not_le.mpr (Nat.le_max_right _ _))
  rw [hpending]
  rfl

theorem layoutShown_joinLines (hk : k < us.length) :
    layoutShown width (Text.joinLines (us.take (k + 1))) =
      ⟨(layoutShown width (us.getD k [])).columns,
        startRow width us k + (layoutShown width (us.getD k [])).rows⟩ := by
  induction us generalizing k with
  | nil => cases hk
  | cons u us ih =>
    cases k with
    | zero => simp [Text.joinLines_singleton, startRow]
    | succ k =>
      have hk : k < us.length := Nat.lt_of_succ_lt_succ hk
      obtain ⟨next, rest, rfl⟩ := List.exists_cons_of_length_pos (Nat.zero_lt_of_lt hk)
      have hrest := ih hk
      rw [List.take_succ_cons] at hrest
      rw [List.take_succ_cons, List.take_succ_cons, Text.joinLines_cons_cons, layoutShown_lineFeed,
        hrest, startRow, List.getD_cons_succ, Nat.add_assoc ((layoutShown width u).rows + 1)]

theorem joinLines_screen_rows (hk : k < us.length) :
    ((layoutShown width (Text.joinLines (us.take (k + 1)))).screen width).rows =
      endRow width us k := by
  rw [layoutShown_joinLines hk, endRow, Layout.screen_rows, Layout.screen_rows, Nat.add_assoc]
  rfl

/-- An empty line is not below the end of the line above it just if that one fills its last row. -/
theorem endRow_empty_le_iff (hk : k < us.length) (hnil : us.getD (k + 1) [] = []) :
    endRow width us (k + 1) ≤ endRow width us k ↔
      (layoutShown width (Text.joinLines (us.take (k + 1)))).isPending width = true := by
  rw [endRow_of_nil hnil, startRow_succ hk, endRow, Layout.screen_rows, layoutShown_joinLines hk]
  change _ ↔ (layoutShown width (us.getD k [])).isPending width = true
  cases (layoutShown width (us.getD k [])).isPending width with
  | true => simp
  | false => simp

def Written (qs us : List Text) : Prop :=
  List.Forall₂ (fun q u => run .ground q = (.ground, u) ∧ '\n' ∉ q) qs us

theorem written_pieces (hstyle : Faithful style) (hfirst : Printable p.first)
    (hcontinuation : Printable p.continuation) (hls : ∀ l ∈ ls, Printable l) :
    Written (pieces p style ls) (pieces p id ls) := by
  have hnone := pieces_not_mem hstyle hfirst hcontinuation hls
  cases ls with
  | nil => exact .cons ⟨hfirst.run, hfirst.not_mem⟩ .nil
  | cons line rest =>
    have hshown {prompt l : Text} (hprompt : Printable prompt) (hl : l ∈ line :: rest) :
        run .ground (prompt ++ style l) = (.ground, prompt ++ l) :=
      run_ground_append hprompt.run (hstyle.shown (hls l hl))
    refine .cons ⟨hshown hfirst List.mem_cons_self, hnone _ List.mem_cons_self⟩ ?_
    rw [List.forall₂_map_left_iff, List.forall₂_map_right_iff, List.forall₂_same]
    intro l hl
    refine ⟨hshown hcontinuation (List.mem_cons_of_mem _ hl), hnone _ ?_⟩
    exact List.mem_cons_of_mem _ (List.mem_map_of_mem hl)

theorem Written.run_joinLines (h : Written qs us) :
    run .ground (Text.joinLines qs) = (.ground, Text.joinLines us) := by
  induction h with
  | nil => rfl
  | cons hq hrest ih =>
    cases hrest with
    | nil => simpa [Text.joinLines_singleton] using hq.1
    | cons =>
      have hfeed : run .ground ['\n'] = (.ground, ['\n']) := rfl
      rw [Text.joinLines_cons_cons, Text.joinLines_cons_cons]
      exact run_ground_append hq.1 (run_ground_append hfeed ih)

theorem Written.getD_eq_nil (h : Written qs us) (hnil : qs.getD k [] = []) : us.getD k [] = [] := by
  induction h generalizing k with
  | nil => exact hnil
  | @cons q u qs us hq hrest ih =>
    cases k with
    | zero =>
      rw [List.getD_cons_zero] at hnil ⊢
      rw [hnil] at hq
      exact (congrArg Prod.snd hq.1).symm
    | succ k =>
      rw [List.getD_cons_succ] at hnil ⊢
      exact ih hnil

theorem rowsOf_ended (hw : 0 < width) (h : run .ground s = (.ground, u)) :
    rowsOf width (s ++ ['\n']) = (layoutShown width u).rows + 1 := by
  have hmax : max width 1 = width := by omega
  have hfeed : run .ground ['\n'] = (.ground, ['\n']) := rfl
  have hshown : strip (s ++ ['\n']) = u ++ ['\n'] := by
    rw [strip, run_ground_append h hfeed]
  rw [rowsOf, layout, hmax, hshown, layoutShown_lineFeed, layoutShown_nil]
  simp

/-- Each line that is split off starts on the row that the cut counts for it. -/
theorem cutRow_joinLines (hw : 0 < width) (h : Written qs us)
    (hk : k < (Text.splitLines (Text.joinLines qs)).length) :
    cutRow width (Text.splitLines (Text.joinLines qs)) k = startRow width us k := by
  induction h generalizing k with
  | nil => exact absurd hk (Nat.not_lt_zero k)
  | @cons q u qs us hq hrest ih =>
    obtain ⟨hrun, hnone⟩ := hq
    cases k with
    | zero => rw [cutRow_zero, startRow_zero]
    | succ k =>
      cases hrest with
      | nil =>
        have hone := (Text.lt_length_splitLines (List.forall_mem_singleton.mpr hnone) (k + 1)).mp hk
        exact absurd hone.1 (by simp)
      | cons =>
        rw [Text.joinLines_cons_cons, Text.splitLines_append_lineFeed hnone] at hk ⊢
        rw [cutRow, rowsOf_ended hw hrun, ih (Nat.lt_of_succ_lt_succ hk), startRow]

/-- Of lines that are cut, those are left that start on or above the row. Only an empty line at the end,
which has no entry, is left out although it starts there too. -/
theorem linesBefore_rows (hw : 0 < width) (hstyle : Faithful style) (hfirst : Printable p.first)
    (hcontinuation : Printable p.continuation) (hls : ∀ l ∈ ls, Printable l) (limit : Nat) :
    ∃ m < (pieces p style ls).length,
      Session.dropLineFeed (linesBefore (p.showLines style ls) (limit + 1) width) =
        Text.joinLines ((pieces p style ls).take (m + 1)) ∧
      ∀ k < (pieces p style ls).length, k ≤ m ↔ k = 0 ∨
        startRow width (pieces p id ls) k ≤ limit ∧
          (k + 1 < (pieces p style ls).length ∨ (pieces p style ls).getD k [] ≠ []) := by
  have hnone := pieces_not_mem hstyle hfirst hcontinuation hls
  have hwritten := written_pieces hstyle hfirst hcontinuation hls
  obtain ⟨m, hm, hdropped, hkept⟩ :=
    linesBefore_joinLines hnone (pieces_ne_nil p style ls) limit width
  refine ⟨m, hm, by rw [showLines_eq, hdropped], fun k hk => ?_⟩
  have hsplit := Text.lt_length_splitLines hnone k
  rw [hkept k hk]
  refine or_congr_right ⟨fun ⟨hentry, hrow⟩ => ?_, fun ⟨hrow, hnonempty⟩ => ?_⟩
  · rw [cutRow_joinLines hw hwritten hentry] at hrow
    exact ⟨hrow, (hsplit.mp hentry).2⟩
  · have hentry := hsplit.mpr ⟨hk, hnonempty⟩
    rw [cutRow_joinLines hw hwritten hentry]
    exact ⟨hentry, hrow⟩

end Promptline.Display
