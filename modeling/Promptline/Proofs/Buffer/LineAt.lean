import Promptline.Buffer.Basic
import Promptline.Proofs.Text.Lines

set_option autoImplicit false

namespace Promptline

namespace Text

variable {t : Text}

/-- The lines that a cursor can be on: behind a last line feed there is one more, with nothing on it. -/
def cursorLines (t : Text) : List Text :=
  splitLines t ++ if t.getLast? = some '\n' then [[]] else []

def nearest? (ls : List Text) (index : Int) : Option Text := ls[min index.toNat (ls.length - 1)]?

theorem nearest?_mem {ls : List Text} {index : Int} (h : nearest? ls index = some t) : t ∈ ls :=
  List.mem_of_getElem? h

theorem nearest?_append_nil (ls : List Text) (index : Int) :
    nearest? (ls ++ [[]]) index = if index.toNat < ls.length then nearest? ls index else some [] := by
  rw [nearest?, nearest?, List.length_append, List.length_singleton, Nat.add_sub_cancel]
  split
  · rename_i hlt
    rw [Nat.min_eq_left (Nat.le_of_lt hlt), Nat.min_eq_left (Nat.le_sub_one_of_lt hlt),
      List.getElem?_append_left hlt]
  · rename_i hge
    rw [Nat.min_eq_right (Nat.le_of_not_lt hge), List.getElem?_concat_length]

theorem splitLines_ne_nil (ht : t ≠ []) : splitLines t ≠ [] := by
  intro hnil
  have hflat := splitLines_flatten t
  rw [hnil] at hflat
  exact ht hflat.symm

theorem cursorLines_length (ht : t ≠ []) : (cursorLines t).length = countLines t := by
  obtain ⟨above, last, hlines, hcount, hsplit⟩ := exists_last_line t
  have hended : t.getLast? = some '\n' ↔ last = [] := by
    rw [getLast?_lineFeed_iff hlines]
    constructor
    · exact And.right
    · rintro rfl
      refine ⟨?_, rfl⟩
      rintro rfl
      exact ht (text_of_lines hlines).symm
  rw [cursorLines, List.length_append, hsplit, hcount]
  by_cases hlast : last = [] <;> simp [hended, hlast]

/-- A line feed at the end leaves one line without an entry. -/
theorem splitLines_length_of_ended (ht : t.getLast? = some '\n') :
    (splitLines t).length = t.count '\n' := by
  obtain ⟨above, last, hlines, -⟩ := exists_last_line t
  rw [splitLines_length, hlines, ((getLast?_lineFeed_iff hlines).mp ht).2, List.getLast?_concat, if_pos rfl,
    countLines, Nat.add_sub_cancel]

end Text

namespace Buffer

variable {b : Buffer} {offset : Int}

/-- The line asked for is the last one that a line feed ends, and nothing follows it. -/
def AsksForLastEnded (b : Buffer) (offset : Int) : Prop :=
  b.text.getLast? = some '\n' ∧ (b.lineIndex + offset).toNat + 1 = b.text.count '\n'

theorem getLine_ignoring (hb : b.text ≠ []) (offset : Int) :
    Text.nearest? (Text.splitLines b.text) (b.lineIndex + offset) = some (b.getLine offset true) := by
  have hpos := List.length_pos_iff.mpr (Text.splitLines_ne_nil hb)
  have hlt := Nat.lt_of_le_of_lt (Nat.min_le_right (b.lineIndex + offset).toNat
    ((Text.splitLines b.text).length - 1)) (Nat.sub_one_lt_of_lt hpos)
  rw [Text.nearest?, getLine]
  simp [List.getElem?_eq_getElem hlt]

theorem getLine_of_unended (hlast : b.text.getLast? ≠ some '\n') (offset : Int) :
    b.getLine offset false = b.getLine offset true := by
  simp [getLine, hlast]

/-- Where a line feed ends the text, the last entry is passed over for the empty line behind it. -/
theorem getLine_of_ended (hlast : b.text.getLast? = some '\n') (offset : Int) :
    b.getLine offset false =
      if (b.lineIndex + offset).toNat + 1 < b.text.count '\n' then b.getLine offset true else [] := by
  have hlength := Text.splitLines_length_of_ended hlast
  have hpos : 0 < b.text.count '\n' := List.count_pos_iff.mpr (List.mem_of_getLast? hlast)
  have hat : min (b.lineIndex + offset).toNat (b.text.count '\n' - 1) = b.text.count '\n' - 1 ↔
      ¬ (b.lineIndex + offset).toNat + 1 < b.text.count '\n' := by omega
  split
  · rename_i hlt
    have hno := mt hat.mp (not_not_intro hlt)
    simp [getLine, hlast, hlength, hno]
  · rename_i hge
    simp [getLine, hlast, hlength, hat.mpr hge]

/-- A text is found line by line with the empty last line left out. With that line counted it is found too,
save the line before it, in whose place there is nothing. -/
theorem getLine_nearest (b : Buffer) (hb : b.text ≠ []) (offset : Int) :
    Text.nearest? (Text.splitLines b.text) (b.lineIndex + offset) = some (b.getLine offset true) ∧
      (Text.nearest? (Text.cursorLines b.text) (b.lineIndex + offset) = some (b.getLine offset false) ↔
        ¬ b.AsksForLastEnded offset) ∧
      (b.AsksForLastEnded offset → b.getLine offset false = []) := by
  have hignoring := getLine_ignoring hb offset
  refine ⟨hignoring, ?_⟩
  by_cases hlast : b.text.getLast? = some '\n'
  · have hlength := Text.splitLines_length_of_ended hlast
    rw [Text.cursorLines, if_pos hlast, Text.nearest?_append_nil, hlength, hignoring,
      getLine_of_ended hlast, AsksForLastEnded]
    have hline : b.getLine offset true ≠ [] :=
      Text.mem_splitLines_ne_nil (Text.nearest?_mem hignoring)
    rcases Nat.lt_trichotomy ((b.lineIndex + offset).toNat + 1) (b.text.count '\n') with hlt | heq | hgt
    · simp [hlast, hlt, Nat.lt_of_succ_lt hlt, Nat.ne_of_lt hlt]
    · simp [hlast, heq, hline, Nat.lt_of_succ_le (Nat.le_of_eq heq)]
    · simp [hlast, Nat.not_lt.mpr (Nat.le_of_lt_succ hgt), Nat.lt_asymm hgt, Nat.ne_of_gt hgt]
  · have hno : ¬ b.AsksForLastEnded offset := fun h => hlast h.1
    rw [Text.cursorLines, if_neg hlast, List.append_nil, getLine_of_unended hlast]
    exact ⟨⟨fun _ => hno, fun _ => hignoring⟩, fun h => absurd h hno⟩

/-- Two lines below the first of two ended lines is the empty line, and the second one without it. -/
theorem line_below_ended :
    let b : Buffer := ⟨"on".toList, "e\ntwo\n".toList, 0⟩
    b.text ≠ [] ∧
      Text.nearest? (Text.cursorLines b.text) (b.lineIndex + 2) = some [] ∧ b.getLine 2 false = [] ∧
      Text.nearest? (Text.splitLines b.text) (b.lineIndex + 2) = some (b.getLine 2 true) := by
  intro b
  have hnonempty : b.text ≠ [] := by decide
  have hasked : ¬ b.AsksForLastEnded 2 := by
    unfold AsksForLastEnded
    decide
  have hempty : Text.nearest? (Text.cursorLines b.text) (b.lineIndex + 2) = some [] := by decide
  obtain ⟨hignoring, hcounted, -⟩ := getLine_nearest b hnonempty 2
  exact ⟨hnonempty, hempty, Option.some.inj ((hcounted.mpr hasked).symm.trans hempty), hignoring⟩

/-- A cursor on the only line with anything on it asks for that line and gets nothing. -/
theorem last_ended_line_left_blank :
    let b : Buffer := ⟨[], "one\n".toList, 0⟩
    Text.nearest? (Text.cursorLines b.text) (b.lineIndex + 0) = some "one\n".toList ∧
      b.getLine 0 false = [] := by
  decide

end Buffer
end Promptline
