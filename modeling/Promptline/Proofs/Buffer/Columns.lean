import Promptline.Proofs.Buffer.Boundary
import Promptline.Proofs.Buffer.Placement

set_option autoImplicit false

namespace Promptline.Buffer

variable {b moved : Buffer} {above line rest : Text}

def OnLineBoundary (b : Buffer) : Prop := ∃ n, b.lineBefore = Text.takeClusters n b.currentLine

theorem onLineBoundary_iff :
    b.OnLineBoundary ↔ Text.continues b.lineBefore.reverse b.lineAfter = false :=
  Text.eq_takeClusters_iff

instance (b : Buffer) : Decidable b.OnLineBoundary := decidable_of_iff _ onLineBoundary_iff.symm

/-- A place between two clusters of the text is between two clusters of its line. -/
theorem OnBoundary.onLineBoundary (hb : b.OnBoundary) : b.OnLineBoundary := by
  rw [onBoundary_iff, JoinsAtCursor, Text.Joins, Bool.not_eq_true] at hb
  rw [onLineBoundary_iff]
  by_cases hafter : b.lineAfter = []
  · rw [hafter, Text.continues_nil]
  obtain ⟨d, t, hnext⟩ := List.exists_cons_of_ne_nil hafter
  rw [← b.lineAfter_append_below, Text.continues_append hafter, ← b.above_append_lineBefore, hnext] at hb
  rw [hnext]
  cases hline : b.lineBefore with
  | nil => exact Text.nil_continues _
  | cons c line =>
    -- Nothing joins a line to what is above it, and no rule looks back past such a place.
    have hstart : Text.Cluster.joins b.above.reverse c = false := b.closed_above.not_continues (c :: line)
    have hjoins := Text.Cluster.joins_append hstart line.reverse d
    rw [hline, List.reverse_append, List.reverse_cons, List.append_assoc, List.singleton_append] at hb
    rw [List.reverse_cons, Text.continues_cons, ← hjoins]
    exact hb

/-- The cursor is on the line `index` of the same text, as many clusters after its start as it was
after the start of its own line, or at the end of a line that has fewer. -/
structure MovedToLine (b moved : Buffer) (index : Nat) : Prop where
  text : moved.text = b.text
  screenRow : moved.screenRow = b.screenRow
  lineIndex : moved.lineIndex = index
  line : (Text.lines b.text)[index]? = some moved.currentLine
  start : moved.lineBefore = Text.takeClusters b.column moved.currentLine
  column : moved.column = min b.column (Text.clusters moved.currentLine).length

/-- What a move to the line `index` does, which there is unless the cursor is `atEdge`, and where
`back`, the move in the other direction, goes after it. -/
structure LineMove (b : Buffer) (move back : Buffer → Option Buffer) (atEdge : Prop) (index : Nat) :
    Prop where
  fails : move b = none ↔ atEdge
  stays : (move b).getD b = b ↔ atEdge
  moves : ∀ moved, move b = some moved → MovedToLine b moved index
  returns : b.OnLineBoundary → ∀ moved, move b = some moved →
    b.column ≤ (Text.clusters moved.currentLine).length → back moved = some b

theorem atColumn_parts (habove : Closed above) (hline : '\n' ∉ line) (hrest : Opened rest) (b : Buffer)
    (column : Nat) :
    let moved := b.atColumn above line rest column
    moved.above = above ∧ moved.lineBefore = Text.takeClusters column line ∧
      moved.currentLine = line ∧ moved.below = rest := by
  have hsplit := List.prefix_iff_eq_append.mp (Text.takeClusters_isPrefix column line)
  have hbefore : '\n' ∉ Text.takeClusters column line := by
    intro h
    exact hline (hsplit ▸ List.mem_append_left _ h)
  have hafter : '\n' ∉ line.drop (Text.takeClusters column line).length :=
    fun h => hline (List.mem_of_mem_drop h)
  obtain ⟨hmovedAbove, hmovedBefore, hmovedAfter, hmovedBelow⟩ :=
    parts_of_line habove hbefore hafter hrest b.screenRow
  refine ⟨hmovedAbove, hmovedBefore, ?_, hmovedBelow⟩
  rw [currentLine]
  exact (congrArg₂ _ hmovedBefore hmovedAfter).trans hsplit

theorem atColumn_movedToLine (habove : Closed above) (hline : '\n' ∉ line) (hrest : Opened rest)
    (htext : b.text = above ++ line ++ rest) :
    MovedToLine b (b.atColumn above line rest b.column) (above.count '\n') := by
  obtain ⟨hmovedAbove, hmovedBefore, hmovedLine, -⟩ := atColumn_parts habove hline hrest b b.column
  have hmovedText := (atColumn_text b above line rest b.column).trans htext.symm
  have hindex := count_above (b.atColumn above line rest b.column)
  rw [hmovedAbove] at hindex
  refine ⟨hmovedText, rfl, hindex.symm, ?_, ?_, ?_⟩
  · rw [← hmovedText, hindex, lines_getElem?_lineIndex]
  · rw [hmovedBefore, hmovedLine]
  · rw [column, hmovedBefore, hmovedLine, Text.clusters_takeClusters, List.length_take]

/-- Between two clusters of its line the cursor is found again by its column. -/
theorem atColumn_column (hb : b.OnLineBoundary) (hrow : moved.screenRow = b.screenRow) :
    moved.atColumn b.above b.currentLine b.below b.column = b := by
  have hstart : Text.takeClusters b.column b.currentLine = b.lineBefore := by
    rw [Text.takeClusters, currentLine, Text.clusters_append (onLineBoundary_iff.mp hb), column,
      List.take_left, Text.clusters_flatten]
  rw [atColumn, hstart, above_append_lineBefore, currentLine, List.drop_left, lineAfter_append_below,
    hrow]

theorem lineIndex_last_iff (b : Buffer) :
    b.lineIndex + 1 = (Text.lines b.text).length ↔ b.below = [] := by
  have hlength := Text.split_length '\n' b.text
  have hafter : b.after.count '\n' = b.below.count '\n' := by
    rw [← b.lineAfter_append_below, List.count_append,
      List.count_eq_zero.mpr b.lineFeed_not_mem_lineAfter, Nat.zero_add]
  rw [text, List.count_append, ← lineIndex, hafter] at hlength
  rw [Text.lines, text, hlength]
  constructor
  · intro h
    have hnone : '\n' ∉ b.below := List.count_eq_zero.mp (by omega)
    refine b.opened_below.resolve_right fun hhead => hnone ?_
    exact List.mem_of_mem_head? hhead
  · intro h
    rw [h, List.count_nil, Nat.add_zero]

theorem lineIndex_eq_zero_iff (b : Buffer) : b.lineIndex = 0 ↔ b.above = [] := by
  rw [← count_above, List.count_eq_zero]
  constructor
  · exact fun hnone => b.closed_above.resolve_right fun hlast => hnone (List.mem_of_getLast? hlast)
  · rintro h
    rw [h]
    exact List.not_mem_nil

variable {move back : Buffer → Option Buffer} {atEdge : Prop} {index : Nat}

theorem LineMove.of_none (hfails : move b = none) (hedge : atEdge) : LineMove b move back atEdge index where
  fails := iff_of_true hfails hedge
  stays := iff_of_true (by rw [hfails, Option.getD_none]) hedge
  moves := by simp [hfails]
  returns := by simp [hfails]

theorem LineMove.of_some (hmove : move b = some moved) (hedge : ¬ atEdge)
    (hmoved : MovedToLine b moved index) (hindex : index ≠ b.lineIndex)
    (hback : b.OnLineBoundary → moved.column = b.column → back moved = some b) :
    LineMove b move back atEdge index where
  fails := iff_of_false (by simp [hmove]) hedge
  stays := by
    refine iff_of_false (fun hstays => hindex ?_) hedge
    rw [hmove, Option.getD_some] at hstays
    rw [← hmoved.lineIndex, hstays]
  moves := by
    intro moved' h
    obtain rfl := Option.some.inj (hmove.symm.trans h)
    exact hmoved
  returns := by
    intro hb moved' h hcolumn
    obtain rfl := Option.some.inj (hmove.symm.trans h)
    exact hback hb (hmoved.column.trans (Nat.min_eq_left hcolumn))

theorem moveToNextLine?_lineMove (b : Buffer) : LineMove b moveToNextLine? moveToPrevLine?
    (b.lineIndex + 1 = (Text.lines b.text).length) (b.lineIndex + 1) := by
  by_cases hbelow : b.below = []
  · exact .of_none (by rw [moveToNextLine?, hbelow]) ((lineIndex_last_iff b).mpr hbelow)
  · obtain ⟨line, rest, hrest, hline, heq⟩ := exists_line_below hbelow
    have habove : Closed (b.above ++ b.currentLine ++ ['\n']) := Or.inr (by simp)
    have htext : b.text = b.above ++ b.currentLine ++ ['\n'] ++ line ++ rest := by
      rw [text_eq_lines, heq]
      simp
    have hindex : (b.above ++ b.currentLine ++ ['\n']).count '\n' = b.lineIndex + 1 := by
      rw [List.count_append, List.count_append, count_above,
        List.count_eq_zero.mpr b.lineFeed_not_mem_currentLine]
      rfl
    have hmoved := atColumn_movedToLine habove hline hrest htext
    rw [hindex] at hmoved
    refine .of_some (moveToNextLine?_of_below hrest hline heq)
      (mt (lineIndex_last_iff b).mp hbelow) hmoved (Nat.succ_ne_self _) fun hb hcolumn => ?_
    obtain ⟨hmovedAbove, -, hmovedLine, hmovedBelow⟩ := atColumn_parts habove hline hrest b b.column
    rw [moveToPrevLine?_of_above b.closed_above b.lineFeed_not_mem_currentLine hmovedAbove, hcolumn,
      hmovedLine, hmovedBelow, ← heq]
    exact congrArg some (atColumn_column hb rfl)

theorem moveToPrevLine?_lineMove (b : Buffer) :
    LineMove b moveToPrevLine? moveToNextLine? (b.lineIndex = 0) (b.lineIndex - 1) := by
  by_cases habove : b.above = []
  · exact .of_none (by simp [moveToPrevLine?, habove]) ((lineIndex_eq_zero_iff b).mpr habove)
  · obtain ⟨above, line, hclosed, hline, heq⟩ := exists_line_above habove
    have hrest : Opened ('\n' :: (b.currentLine ++ b.below)) := Or.inr rfl
    have htext : b.text = above ++ line ++ '\n' :: (b.currentLine ++ b.below) := by
      rw [text_eq_lines, heq]
      simp
    have hindex : b.lineIndex = above.count '\n' + 1 := by
      rw [← count_above, heq, List.count_append, List.count_append, List.count_eq_zero.mpr hline]
      rfl
    have hmoved := atColumn_movedToLine hclosed hline hrest htext
    rw [← Nat.add_sub_cancel (above.count '\n') 1, ← hindex] at hmoved
    refine .of_some (moveToPrevLine?_of_above hclosed hline heq)
      (mt (lineIndex_eq_zero_iff b).mp habove) hmoved (by omega) fun hb hcolumn => ?_
    obtain ⟨hmovedAbove, -, hmovedLine, hmovedBelow⟩ := atColumn_parts hclosed hline hrest b b.column
    rw [moveToNextLine?_of_below b.opened_below b.lineFeed_not_mem_currentLine hmovedBelow, hcolumn,
      hmovedAbove, hmovedLine, ← heq]
    exact congrArg some (atColumn_column hb rfl)

/-- Moving down goes to the next line and moving up to the one before, if there is one, in the same
column or to the end of a shorter line. From a line that is long enough the other move returns. -/
theorem line_moves (b : Buffer) :
    LineMove b moveToNextLine? moveToPrevLine? (b.lineIndex + 1 = (Text.lines b.text).length)
        (b.lineIndex + 1) ∧
      LineMove b moveToPrevLine? moveToNextLine? (b.lineIndex = 0) (b.lineIndex - 1) :=
  ⟨moveToNextLine?_lineMove b, moveToPrevLine?_lineMove b⟩

/-- A column counts clusters: the cursor after two letters with accents goes down to between two
letters, although there are four characters before it. -/
example : moveToNextLine? ⟨"e\u0301e\u0301".toList, "\nabc".toList, 0⟩ =
    some ⟨"e\u0301e\u0301\nab".toList, "c".toList, 0⟩ := by decide

end Promptline.Buffer
