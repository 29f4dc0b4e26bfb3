import Promptline.Proofs.Buffer.Columns

set_option autoImplicit false

namespace Promptline

namespace Text

variable {t line : Text} {i j n : Nat} {r s : Nat × Nat}

def lineRanges (t : Text) : List (Nat × Nat) :=
  (starts 0 ((lines t).map fun l => l ++ ['\n'])).zipWith (fun start line => (start, start + bytes line))
    (lines t)

def lineOffset (t : Text) (i : Nat) : Nat := bytes (((lines t).take i).flatMap fun l => l ++ ['\n'])

theorem lineRanges_getElem? (t : Text) (i : Nat) : (lineRanges t)[i]? =
    (lines t)[i]?.map fun line => (lineOffset t i, lineOffset t i + bytes line) := by
  rw [lineRanges, List.getElem?_zipWith', starts_getElem?, List.length_map, Nat.zero_add,
    ← List.map_take, ← List.flatMap_def]
  split
  · rfl
  · rename_i hlast
    rw [List.getElem?_eq_none (Nat.le_of_not_lt hlast)]
    rfl

/-- Behind the last line feed there is an empty range, which is that of the empty last line. -/
example : lineRanges "é\n".toList = [(0, 2), (3, 3)] := by decide

theorem lineOffset_succ (h : (lines t)[i]? = some line) :
    lineOffset t (i + 1) = lineOffset t i + bytes line + 1 := by
  rw [lineOffset, List.take_add_one, h, List.flatMap_append, bytes_append, lineOffset, Nat.add_assoc]
  simp [bytes_append, bytes, show '\n'.utf8Size = 1 from rfl]

theorem lineOffset_mono (h : i ≤ j) : lineOffset t i ≤ lineOffset t j := by
  obtain ⟨more, hmore⟩ : (lines t).take i <+: (lines t).take j := List.take_prefix_take_left h
  rw [lineOffset, lineOffset, ← hmore, List.flatMap_append, bytes_append]
  exact Nat.le_add_right _ _

/-- A line feed is between two lines, so no offset is in both. -/
theorem lineRanges_lt (hij : i < j) (hr : (lineRanges t)[i]? = some r)
    (hs : (lineRanges t)[j]? = some s) : r.2 < s.1 := by
  rw [lineRanges_getElem?] at hr hs
  obtain ⟨upper, hupper, rfl⟩ := Option.map_eq_some_iff.mp hr
  obtain ⟨lower, -, rfl⟩ := Option.map_eq_some_iff.mp hs
  have hnext := lineOffset_succ hupper
  have hmono := lineOffset_mono (t := t) (i := i + 1) hij
  dsimp only
  omega

theorem lineRanges_unique (hr : (lineRanges t)[i]? = some r) (hs : (lineRanges t)[j]? = some s)
    (hn : r.1 ≤ n ∧ n ≤ r.2) (hn' : s.1 ≤ n ∧ n ≤ s.2) : i = j := by
  rcases Nat.lt_trichotomy i j with hij | hij | hij
  · have hlt := lineRanges_lt hij hr hs
    omega
  · exact hij
  · have hlt := lineRanges_lt hij hs hr
    omega

/-- A line is what the text holds in its range. -/
theorem slice?_lineRange (h : (lines t)[i]? = some line) :
    slice? (lineOffset t i) (lineOffset t i + bytes line) t = some line := by
  have hsplit : lines t = (lines t).take i ++ line :: (lines t).drop (i + 1) := by
    obtain ⟨hlt, hget⟩ := List.getElem?_eq_some_iff.mp h
    rw [← hget, List.getElem_cons_drop, List.take_append_drop]
  have htext := joinLines_lines t
  rw [hsplit, joinLines_append _ (List.cons_ne_nil _ _), joinLines_cons, ← List.append_assoc] at htext
  have hslice := slice?_bytes (((lines t).take i).flatMap fun l => l ++ ['\n']) line
    (((lines t).drop (i + 1)).flatMap fun l => '\n' :: l)
  rwa [htext] at hslice

theorem slice?_lineRanges (t : Text) :
    (lineRanges t).map (fun r => slice? r.1 r.2 t) = (lines t).map some := by
  apply List.ext_getElem?
  intro i
  rw [List.getElem?_map, List.getElem?_map, lineRanges_getElem?, Option.map_map]
  cases hline : (lines t)[i]? with
  | none => rfl
  | some line => exact congrArg some (slice?_lineRange hline)

structure LinesAgree (t : Text) : Prop where
  count : (lines t).length = countLines t
  ranges : (lineRanges t).map (fun r => slice? r.1 r.2 t) = (lines t).map some
  whole : (splitLines t).flatten = t
  ended : ∀ i < (splitLines t).length, (splitLines t)[i]? =
    (lines t)[i]?.map fun line => line ++ if i + 1 < countLines t then ['\n'] else []
  length : (splitLines t).length =
    if (lines t).getLast? = some [] then countLines t - 1 else countLines t

theorem linesAgree (t : Text) : LinesAgree t where
  count := split_length '\n' t
  ranges := slice?_lineRanges t
  whole := splitLines_flatten t
  ended _ := splitLines_getElem?
  length := splitLines_length t

end Text

namespace Buffer

variable {b : Buffer}

theorem above_eq (b : Buffer) : b.above = b.linesAbove.flatMap fun l => l ++ ['\n'] := by
  have hlines := lines_above_append b (t := []) List.not_mem_nil
  rw [List.append_nil] at hlines
  rw [← Text.joinLines_lines b.above, hlines, Text.joinLines_append _ (List.cons_ne_nil [] []),
    Text.joinLines_singleton, List.append_nil]

theorem lineRanges_lineIndex (b : Buffer) :
    (Text.lineRanges b.text)[b.lineIndex]? = some b.lineRange := by
  have hstart : Text.lineOffset b.text b.lineIndex = Text.bytes b.above := by
    rw [Text.lineOffset, lines_text, lineIndex_eq, List.take_left, ← above_eq]
  rw [Text.lineRanges_getElem?, lines_getElem?_lineIndex, hstart]
  rfl

theorem cursor_in_lineRange (b : Buffer) : b.lineRange.1 ≤ b.cursor ∧ b.cursor ≤ b.lineRange.2 := by
  rw [lineRange, currentLine, Text.bytes_append, cursor_eq]
  dsimp only
  omega

/-- The cursor is in the range of its line, and in no other. -/
theorem lineRange_contains_iff {i : Nat} {r : Nat × Nat} (hr : (Text.lineRanges b.text)[i]? = some r) :
    r.1 ≤ b.cursor ∧ b.cursor ≤ r.2 ↔ i = b.lineIndex := by
  constructor
  · exact fun hcursor =>
      Text.lineRanges_unique hr (lineRanges_lineIndex b) hcursor (cursor_in_lineRange b)
  · rintro rfl
    obtain rfl := Option.some.inj ((lineRanges_lineIndex b).symm.trans hr)
    exact cursor_in_lineRange b

theorem lineRanges_eq_lineRange_iff (b : Buffer) (i : Nat) :
    (Text.lineRanges b.text)[i]? = some b.lineRange ↔ i = b.lineIndex := by
  constructor
  · exact fun hr => (lineRange_contains_iff hr).mp (cursor_in_lineRange b)
  · rintro rfl
    exact lineRanges_lineIndex b

theorem isOnFirstLine_iff (b : Buffer) : b.isOnFirstLine = true ↔ b.lineIndex = 0 := by
  rw [lineIndex, List.count_eq_zero]
  simp [isOnFirstLine]

theorem isOnLastLine_iff (b : Buffer) :
    b.isOnLastLine = true ↔ b.lineIndex = Text.countLines b.text - 1 := by
  have hnone : b.isOnLastLine = true ↔ b.after.count '\n' = 0 := by
    rw [List.count_eq_zero]
    simp [isOnLastLine]
  rw [hnone, Text.countLines, text, List.count_append, lineIndex]
  omega

theorem lineRange_start_iff (b : Buffer) : b.lineIndex = 0 ↔ b.lineRange.1 = 0 :=
  (lineIndex_eq_zero_iff b).trans Text.bytes_eq_zero_iff.symm

theorem lineRange_end_iff (b : Buffer) :
    b.lineIndex = Text.countLines b.text - 1 ↔ b.lineRange.2 = Text.bytes b.text := by
  have hlast := lineIndex_last_iff b
  rw [Text.lines, Text.split_length, Nat.add_right_cancel_iff, ← Text.bytes_eq_zero_iff] at hlast
  rw [Text.countLines, Nat.add_sub_cancel, hlast, bytes_text]
  omega

/-- The cursor's line, which is searched for from the cursor, is the line of the text that is counted up to
there, and it is the first or the last one just if it reaches that end of the text. -/
structure LineFound (b : Buffer) : Prop where
  index : ∀ i, (Text.lineRanges b.text)[i]? = some b.lineRange ↔ i = b.lineIndex
  contains : ∀ i r, (Text.lineRanges b.text)[i]? = some r →
    (r.1 ≤ b.cursor ∧ b.cursor ≤ r.2 ↔ i = b.lineIndex)
  first : (b.isOnFirstLine = true ↔ b.lineIndex = 0) ∧ (b.lineIndex = 0 ↔ b.lineRange.1 = 0)
  last : (b.isOnLastLine = true ↔ b.lineIndex = Text.countLines b.text - 1) ∧
    (b.lineIndex = Text.countLines b.text - 1 ↔ b.lineRange.2 = Text.bytes b.text)

theorem lineFound (b : Buffer) : b.LineFound where
  index := lineRanges_eq_lineRange_iff b
  contains _ _ := lineRange_contains_iff
  first := ⟨isOnFirstLine_iff b, lineRange_start_iff b⟩
  last := ⟨isOnLastLine_iff b, lineRange_end_iff b⟩

end Buffer
end Promptline
