import Mathlib.Data.List.TakeWhile
import Promptline.Buffer.Edit

set_option autoImplicit false

namespace Promptline.Buffer

variable {b : Buffer} {above line rest : Text}

/-- Lines above a line are none or end in a line feed, so that nothing joins them. -/
def Closed (above : Text) : Prop := above = [] ∨ above.getLast? = some '\n'

def Opened (rest : Text) : Prop := rest = [] ∨ rest.head? = some '\n'

theorem text_eq_lines (b : Buffer) : b.text = b.above ++ b.currentLine ++ b.below := by
  rw [currentLine, ← List.append_assoc, above_append_lineBefore, List.append_assoc,
    lineAfter_append_below, text]

theorem bytes_text (b : Buffer) : Text.bytes b.text = b.lineRange.2 + Text.bytes b.below := by
  rw [text_eq_lines, Text.bytes_append, Text.bytes_append, lineRange]

theorem cursor_eq (b : Buffer) : b.cursor = Text.bytes b.above + Text.bytes b.lineBefore := by
  rw [← Text.bytes_append, above_append_lineBefore, cursor]

theorem closed_above (b : Buffer) : Closed b.above := by
  by_cases habove : b.above = []
  · exact Or.inl habove
  · exact Or.inr (above_getLast? habove)

theorem opened_below (b : Buffer) : Opened b.below := by
  have hhead := List.head?_dropWhile_not (· != '\n') b.after
  rw [below]
  cases hbelow : b.after.dropWhile (· != '\n') with
  | nil => exact Or.inl rfl
  | cons c t =>
    rw [hbelow] at hhead
    exact Or.inr (by simpa using hhead)

theorem lineFeed_not_mem_lineBefore (b : Buffer) : '\n' ∉ b.lineBefore := by
  intro h
  rw [lineBefore, List.mem_reverse] at h
  have hkept := List.mem_takeWhile_imp h
  simp at hkept

theorem lineFeed_not_mem_lineAfter (b : Buffer) : '\n' ∉ b.lineAfter := by
  intro h
  have hkept := List.mem_takeWhile_imp h
  simp at hkept

theorem lineFeed_not_mem_currentLine (b : Buffer) : '\n' ∉ b.currentLine := by
  rw [currentLine, List.mem_append]
  exact fun h => h.elim (lineFeed_not_mem_lineBefore b) (lineFeed_not_mem_lineAfter b)

theorem takeWhile_line {l : Text} (hl : '\n' ∉ l) (hrest : Opened rest) :
    (l ++ rest).takeWhile (· != '\n') = l ∧ (l ++ rest).dropWhile (· != '\n') = rest := by
  have hkept : ∀ c ∈ l, (c != '\n') = true := by
    intro c hc
    rw [bne_iff_ne]
    rintro rfl
    exact hl hc
  have hstop : rest.takeWhile (· != '\n') = [] ∧ rest.dropWhile (· != '\n') = rest := by
    rcases hrest with rfl | hrest
    · exact ⟨rfl, rfl⟩
    · obtain ⟨t, rfl⟩ := List.head?_eq_some_iff.mp hrest
      exact ⟨rfl, rfl⟩
  rw [List.takeWhile_append_of_pos hkept, List.dropWhile_append_of_pos hkept, hstop.1, hstop.2,
    List.append_nil]
  exact ⟨rfl, rfl⟩

/-- A cursor between the two parts of a line. -/
theorem parts_of_line {l r : Text} (habove : Closed above) (hl : '\n' ∉ l) (hr : '\n' ∉ r)
    (hrest : Opened rest) (row : Nat) :
    let b : Buffer := ⟨above ++ l, r ++ rest, row⟩
    b.above = above ∧ b.lineBefore = l ∧ b.lineAfter = r ∧ b.below = rest := by
  have hreversed : Opened above.reverse := by
    rw [Opened, List.reverse_eq_nil_iff, List.head?_reverse]
    exact habove
  obtain ⟨htake, hdrop⟩ := takeWhile_line (fun h => hl (List.mem_reverse.mp h)) hreversed
  obtain ⟨htake', hdrop'⟩ := takeWhile_line hr hrest
  refine ⟨?_, ?_, htake', hdrop'⟩
  · rw [Buffer.above, List.reverse_append, hdrop, List.reverse_reverse]
  · rw [lineBefore, List.reverse_append, htake, List.reverse_reverse]

theorem splitAfterLines_above {n : Nat} {t : Text} (h : n ≤ t.count '\n') :
    (Text.splitAfterLines n t).1.count '\n' = n ∧ Closed (Text.splitAfterLines n t).1 := by
  induction t generalizing n with
  | nil =>
    rw [Nat.le_zero.mp h]
    exact ⟨rfl, Or.inl rfl⟩
  | cons c t ih =>
    cases n with
    | zero => exact ⟨rfl, Or.inl rfl⟩
    | succ n =>
      by_cases hc : c = '\n'
      · subst hc
        rw [List.count_cons_self, Nat.succ_le_succ_iff] at h
        obtain ⟨hcount, hclosed⟩ := ih h
        simp only [Text.splitAfterLines, if_true, List.count_cons_self, hcount, true_and]
        rcases hclosed with hnil | hlast
        · rw [hnil]
          exact Or.inr rfl
        · exact Or.inr (by simp [List.getLast?_cons, hlast])
      · rw [List.count_cons_of_ne hc] at h
        obtain ⟨hcount, hclosed⟩ := ih h
        simp only [Text.splitAfterLines, if_neg hc, List.count_cons_of_ne hc, hcount, true_and]
        rcases hclosed with hnil | hlast
        · rw [hnil] at hcount
          cases hcount
        · exact Or.inr (by simp [List.getLast?_cons, hlast])

theorem splitAfterLines_of_closed (h : Closed above) (t : Text) :
    Text.splitAfterLines (above.count '\n') (above ++ t) = (above, t) := by
  induction above with
  | nil => cases t <;> rfl
  | cons c above ih =>
    have hrest : Closed above := by
      rcases List.eq_nil_or_concat above with rfl | ⟨rest, last, rfl⟩
      · exact Or.inl rfl
      · right
        simpa [Closed, List.getLast?_cons] using h
    by_cases hc : c = '\n'
    · subst hc
      rw [List.count_cons_self]
      simp only [List.cons_append, Text.splitAfterLines, if_true, ih hrest]
    · have hpos : above.count '\n' ≠ 0 := by
        rcases hrest with rfl | hlast
        · simp [Closed, hc] at h
        · exact Nat.ne_of_gt (List.count_pos_iff.mpr (List.mem_of_getLast? hlast))
      obtain ⟨n, hn⟩ := Nat.exists_eq_add_one_of_ne_zero hpos
      rw [List.count_cons_of_ne hc, hn]
      rw [hn] at ih
      simp only [List.cons_append, Text.splitAfterLines, if_neg hc, ih hrest]

theorem exists_line_above (habove : b.above ≠ []) :
    ∃ above line, Closed above ∧ '\n' ∉ line ∧ b.above = above ++ line ++ ['\n'] := by
  obtain ⟨ls, hls⟩ := List.getLast?_eq_some_iff.mp (above_getLast? habove)
  let upper : Buffer := ⟨ls, [], 0⟩
  refine ⟨upper.above, upper.lineBefore, upper.closed_above, upper.lineFeed_not_mem_lineBefore, ?_⟩
  rw [above_append_lineBefore, hls]

theorem exists_line_below (hbelow : b.below ≠ []) :
    ∃ line rest, Opened rest ∧ '\n' ∉ line ∧ b.below = '\n' :: (line ++ rest) := by
  obtain ⟨ls, hls⟩ := List.head?_eq_some_iff.mp (b.opened_below.resolve_left hbelow)
  let lower : Buffer := ⟨[], ls, 0⟩
  refine ⟨lower.lineAfter, lower.below, lower.opened_below, lower.lineFeed_not_mem_lineAfter, ?_⟩
  rw [lineAfter_append_below, hls]

theorem moveToPrevLine?_of_above (habove : Closed above) (hline : '\n' ∉ line)
    (h : b.above = above ++ line ++ ['\n']) : b.moveToPrevLine? =
      some (b.atColumn above line ('\n' :: (b.currentLine ++ b.below)) b.column) := by
  obtain ⟨hupperAbove, hupperBefore, -, -⟩ :=
    parts_of_line habove hline List.not_mem_nil (Or.inl rfl) b.screenRow
  have hne : ¬ b.above.isEmpty = true := by simp [h]
  have hrest : '\n' :: b.lineBefore ++ b.after = '\n' :: (b.currentLine ++ b.below) := by
    rw [currentLine, List.append_assoc, lineAfter_append_below, List.cons_append]
  rw [moveToPrevLine?, if_neg hne, hrest, h, List.dropLast_concat]
  exact congrArg₂ (fun a l => some (b.atColumn a l _ b.column)) hupperAbove hupperBefore

theorem moveToNextLine?_of_below (hrest : Opened rest) (hline : '\n' ∉ line)
    (h : b.below = '\n' :: (line ++ rest)) : b.moveToNextLine? =
      some (b.atColumn (b.above ++ b.currentLine ++ ['\n']) line rest b.column) := by
  obtain ⟨-, -, hlowerAfter, hlowerBelow⟩ :=
    parts_of_line (Or.inl rfl) List.not_mem_nil hline hrest b.screenRow
  have habove : b.before ++ b.lineAfter ++ ['\n'] = b.above ++ b.currentLine ++ ['\n'] := by
    rw [← b.above_append_lineBefore, currentLine]
    simp only [List.append_assoc]
  rw [moveToNextLine?, h, ← habove]
  exact congrArg₂ (fun l r => some (b.atColumn _ l r b.column)) hlowerAfter hlowerBelow

def upperLine? (b : Buffer) : Option (Text × Text) :=
  if b.above.isEmpty then none
  else some (lineBefore ⟨b.above.dropLast, [], b.screenRow⟩, '\n' :: b.lineBefore ++ b.after)

def lowerLine? (b : Buffer) : Option (Text × Text) :=
  match b.below with
  | [] => none
  | _ :: rest => some (lineAfter ⟨[], rest, b.screenRow⟩, below ⟨[], rest, b.screenRow⟩)

theorem moveToPrevLine?_eq (b : Buffer) : b.moveToPrevLine? = b.upperLine?.map fun (line, rest) =>
    b.atColumn (Buffer.above ⟨b.above.dropLast, [], b.screenRow⟩) line rest b.column := by
  unfold moveToPrevLine? upperLine?
  split <;> rfl

theorem moveToNextLine?_eq (b : Buffer) : b.moveToNextLine? = b.lowerLine?.map fun (line, rest) =>
    b.atColumn (b.before ++ b.lineAfter ++ ['\n']) line rest b.column := by
  have hopened := b.opened_below
  cases hbelow : b.below with
  | nil => simp only [moveToNextLine?, lowerLine?, hbelow, Option.map_none]
  | cons c rest =>
    obtain rfl : c = '\n' := by simpa [Opened, hbelow] using hopened
    simp only [moveToNextLine?, lowerLine?, hbelow, Option.map_some]

theorem opened_of_upperLine? (h : b.upperLine? = some (line, rest)) : Opened rest := by
  unfold upperLine? at h
  split at h
  · cases h
  · cases h
    exact Or.inr rfl

theorem opened_of_lowerLine? (h : b.lowerLine? = some (line, rest)) : Opened rest := by
  unfold lowerLine? at h
  split at h
  · cases h
  · cases h
    exact opened_below _

end Promptline.Buffer
