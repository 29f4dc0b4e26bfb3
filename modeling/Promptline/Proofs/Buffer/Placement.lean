import Promptline.Proofs.Buffer.Reindent
import Promptline.Proofs.Text.Offsets

set_option autoImplicit false

namespace Promptline.Buffer

open Display Indent

variable {table : Table} {unit indent t : Text} {b : Buffer} {ctx : Context}

theorem not_mem_contentAfter (b : Buffer) : '\n' ∉ b.contentAfter := by
  intro h
  have hline : '\n' ∈ Text.trimStart b.currentLine := by
    rw [trimStart_currentLine]
    exact List.mem_append_right _ h
  exact lineFeed_not_mem_currentLine b (trimStart_subset _ hline)

structure PlacedBehind (b : Buffer) (indent : Text) (placed : Buffer) : Prop where
  lineIndex : placed.lineIndex = b.lineIndex
  lineBefore : placed.lineBefore = indent ++ Text.trimStart b.lineBefore
  currentLine : placed.currentLine = indent ++ Text.trimStart b.currentLine

theorem placedBehind_of_parts {placed : Buffer} {above below : Text} (hindent : '\n' ∉ indent)
    (habove : Closed above) (hcount : above.count '\n' = b.lineIndex) (hbelow : Opened below)
    (hbefore : placed.before = above ++ (indent ++ Text.trimStart b.lineBefore))
    (hafter : placed.after = b.contentAfter ++ below) : PlacedBehind b indent placed := by
  obtain ⟨before, after, row⟩ := placed
  obtain rfl : before = _ := hbefore
  obtain rfl : after = _ := hafter
  have hfeed := not_mem_indented hindent b.lineFeed_not_mem_lineBefore
  obtain ⟨-, hline, hrest, -⟩ := parts_of_line habove hfeed (not_mem_contentAfter b) hbelow row
  refine ⟨?_, hline, ?_⟩
  · rw [Buffer.lineIndex, List.count_append, List.count_eq_zero.mpr hfeed, hcount, Nat.add_zero]
  · rw [Buffer.currentLine, hline, hrest, trimStart_currentLine, List.append_assoc]

theorem count_above (b : Buffer) : b.above.count '\n' = b.lineIndex := by
  rw [lineIndex, ← above_append_lineBefore, List.count_append,
    List.count_eq_zero.mpr (lineFeed_not_mem_lineBefore b), Nat.add_zero]

theorem withIndentation_placed (b : Buffer) (hindent : '\n' ∉ indent) :
    PlacedBehind b indent (b.withIndentation indent) :=
  placedBehind_of_parts hindent b.closed_above (count_above b) b.opened_below
    (List.append_assoc _ _ _) rfl

theorem lines_joinLines_reindented (hfeed : '\n' ∉ unit) (table : Table) (t : Text) :
    Text.lines (Text.joinLines (reindentedLines table unit t)) = reindentedLines table unit t := by
  refine Text.lines_joinLines (fun line hline => ?_) fun hnil => ?_
  · obtain ⟨⟨l, index⟩, hl, rfl⟩ := List.mem_map.mp hline
    have hmem : l ∈ Text.lines t := List.fst_mem_of_mem_zipIdx hl
    exact not_mem_indented (not_mem_indentation hfeed _) fun h => (Text.split_mem hmem h).2 rfl
  · rw [reindentedLines, List.map_eq_nil_iff, List.zipIdx_eq_nil_iff] at hnil
    exact Text.lines_ne_nil t hnil

def reindentedStart (b : Buffer) (table : Table) (unit : Text) : Buffer :=
  let parts := Text.splitAfterLines b.lineIndex (Text.joinLines (reindentedLines table unit b.text))
  ⟨parts.1, parts.2, b.screenRow⟩

theorem reindentedStart_before (b : Buffer) (table : Table) (unit : Text) :
    (b.reindentedStart table unit).lineIndex = b.lineIndex ∧
      Closed (b.reindentedStart table unit).before :=
  splitAfterLines_above (b.lineIndex_le_count table unit)

theorem reindentedStart_lineBefore (b : Buffer) (table : Table) (unit : Text) :
    (b.reindentedStart table unit).lineBefore = [] := by
  have hclosed := (reindentedStart_before b table unit).2
  have hparts := parts_of_line hclosed List.not_mem_nil
    (b.reindentedStart table unit).lineFeed_not_mem_lineAfter
    (b.reindentedStart table unit).opened_below b.screenRow
  rw [List.append_nil, lineAfter_append_below] at hparts
  exact hparts.2.1

theorem reindentedStart_lineAfter (hfeed : '\n' ∉ unit) (b : Buffer) (table : Table) :
    (b.reindentedStart table unit).lineAfter =
      b.lineIndentation table unit ++ Text.trimStart b.currentLine := by
  have hline := lines_getElem?_lineIndex (b.reindentedStart table unit)
  have htext : (b.reindentedStart table unit).text =
      Text.joinLines (reindentedLines table unit b.text) := Text.splitAfterLines_append _ _
  have hwhole : (b.reindentedStart table unit).currentLine =
      (b.reindentedStart table unit).lineAfter := by
    rw [currentLine, reindentedStart_lineBefore, List.nil_append]
  rw [(reindentedStart_before b table unit).1, htext, lines_joinLines_reindented hfeed,
    reindentedLines_getElem?, lines_getElem?_lineIndex, indentFor_lines, ← lineIndentation_eq,
    hwhole] at hline
  exact (Option.some.inj hline).symm

theorem reindentAll_placed (hunit : Text.isBlank unit = true) (hfeed : '\n' ∉ unit) (b : Buffer)
    (table : Table) (ctx : Context) :
    PlacedBehind b (b.lineIndentation table unit) (b.reindentAll table unit ctx) := by
  let start := b.reindentedStart table unit
  let indent := b.lineIndentation table unit
  let behind := indent ++ Text.trimStart b.lineBefore
  obtain ⟨hcount, hclosed⟩ := reindentedStart_before b table unit
  have hline := reindentedStart_lineAfter hfeed b table
  have hsplit : start.lineAfter = behind ++ b.contentAfter := by
    rw [hline, trimStart_currentLine, List.append_assoc]
  have hspace : Text.leadingSpace start.lineAfter = indent := by
    rw [hline]
    exact Text.leadingSpace_indented (isBlank_indentation hunit _) _
  have htaken : Text.takeBytes (Text.bytes (Text.leadingSpace start.lineAfter) +
      (Text.bytes b.lineBefore - Text.bytes (Text.leadingSpace b.currentLine))) start.lineAfter =
        behind := by
    rw [hspace, ← bytes_trimStart_lineBefore, ← Text.bytes_append, hsplit]
    exact (Text.takeBytes_bytes 0 behind _).trans (by rw [Text.takeBytes_zero, List.append_nil])
  have hdrop : start.after.drop behind.length = b.contentAfter ++ start.below := by
    rw [← start.lineAfter_append_below, hsplit, List.append_assoc, List.drop_left]
  exact placedBehind_of_parts (not_mem_indentation hfeed _) hclosed hcount start.opened_below
    (congrArg (start.before ++ ·) htaken)
    ((congrArg (fun line : Text => start.after.drop line.length) htaken).trans hdrop)

theorem PlacedBehind.bytes_lineBefore {placed : Buffer} (h : PlacedBehind b indent placed) :
    Text.bytes placed.lineBefore = Text.bytes indent +
      (Text.bytes b.lineBefore - Text.bytes (Text.leadingSpace b.currentLine)) := by
  rw [h.lineBefore, Text.bytes_append, bytes_trimStart_lineBefore]

theorem PlacedBehind.leadingSpace {placed : Buffer} (h : PlacedBehind b indent placed)
    (hindent : Text.isBlank indent = true) : Text.leadingSpace placed.currentLine = indent := by
  rw [h.currentLine, Text.leadingSpace_indented hindent]

/-- The cursor is inside an indentation that reindenting its line leaves as it is. -/
def RestsInIndentation (b : Buffer) (indent : Text) : Prop :=
  Text.leadingSpace b.currentLine = indent ∧
    Text.bytes b.lineBefore < Text.bytes (Text.leadingSpace b.currentLine)

/-- The white space of a line, up to a cursor that is not inside it, is before the cursor. -/
theorem lineBefore_of_le
    (h : Text.bytes (Text.leadingSpace b.currentLine) ≤ Text.bytes b.lineBefore) :
    b.lineBefore = Text.leadingSpace b.currentLine ++ Text.trimStart b.lineBefore := by
  cases hblank : Text.isBlank b.lineBefore with
  | true =>
    rw [leadingSpace_currentLine hblank, Text.bytes_append] at h
    have hnone : Text.leadingSpace b.lineAfter = [] := by
      by_contra hne
      have hpos := Text.bytes_pos hne
      omega
    rw [Text.trimStart_eq_nil hblank, leadingSpace_currentLine hblank, hnone, List.append_nil,
      List.append_nil]
  | false =>
    rw [currentLine, Text.leadingSpace_append hblank, Text.leadingSpace_append_trimStart]

theorem reindentLine_placed (hfeed : '\n' ∉ unit) (table : Table) (ctx : Context)
    (h : ¬ RestsInIndentation b (b.lineIndentation table unit)) :
    PlacedBehind b (b.lineIndentation table unit) (b.reindentLine table unit ctx).1 := by
  have hindent : '\n' ∉ b.lineIndentation table unit := not_mem_indentation hfeed _
  unfold reindentLine
  dsimp only
  split
  · rename_i hsame
    have hle := Nat.le_of_not_lt fun hlt => h ⟨hsame, hlt⟩
    refine ⟨rfl, ?_, ?_⟩
    · rw [← hsame]
      exact lineBefore_of_le hle
    · rw [← hsame, Text.leadingSpace_append_trimStart]
  · have hplaced := withIndentation_placed b hindent
    exact ⟨hplaced.lineIndex, hplaced.lineBefore, hplaced.currentLine⟩

theorem reindentLine_resting (table : Table) (ctx : Context)
    (h : RestsInIndentation b (b.lineIndentation table unit)) :
    b.reindentLine table unit ctx = (b, 0) := by
  unfold reindentLine
  exact if_pos h.1

theorem lineIndentation_of_frames (b : Buffer) (table : Table) (unit : Text) :
    b.lineIndentation table unit =
      indentation unit (indentFor (scan table (Text.lines b.text)) b.lineIndex) := by
  rw [lineIndentation_eq, indentFor_lines]

/-- Reindenting all lines leaves the cursor at the same place in the content of its line, or puts it
right after the new indentation. Reindenting its line does the same, unless the line keeps an
indentation with the cursor inside it: then nothing moves. -/
theorem cursor_after_reindenting (hunit : Text.isBlank unit = true) (hfeed : '\n' ∉ unit)
    (b : Buffer) (table : Table) (ctx : Context) :
    let indent := indentation unit (indentFor (scan table (Text.lines b.text)) b.lineIndex)
    let c := Text.bytes b.lineBefore
    let k := Text.bytes (Text.leadingSpace b.currentLine)
    let m := Text.bytes indent
    let column := if k ≤ c then m + (c - k) else m
    let all := b.reindentAll table unit ctx
    let one := (b.reindentLine table unit ctx).1
    (all.lineIndex = b.lineIndex ∧ Text.leadingSpace all.currentLine = indent ∧
        Text.bytes all.lineBefore = column) ∧
      (one.lineIndex = b.lineIndex ∧ Text.leadingSpace one.currentLine = indent ∧
        one.currentLine = all.currentLine) ∧
      (Text.bytes one.lineBefore = column ↔ ¬ RestsInIndentation b indent) ∧
      (one.lineBefore = all.lineBefore ↔ ¬ RestsInIndentation b indent) ∧
      (RestsInIndentation b indent → one = b) := by
  intro indent c k m column all one
  have hindent : b.lineIndentation table unit = indent := lineIndentation_of_frames b table unit
  have hblank : Text.isBlank indent = true := isBlank_indentation hunit _
  have hcolumn : column = m + (c - k) := by
    simp only [column]
    split <;> omega
  have hall : PlacedBehind b indent all := hindent ▸ reindentAll_placed hunit hfeed b table ctx
  have hone (h : ¬ RestsInIndentation b indent) : PlacedBehind b indent one := by
    rw [← hindent] at h ⊢
    exact reindentLine_placed hfeed table ctx h
  have hrests (h : RestsInIndentation b indent) : one = b := by
    rw [← hindent] at h
    exact congrArg Prod.fst (reindentLine_resting table ctx h)
  -- In an indentation of the same length a cursor that is left where it was is not behind it.
  have hinside (h : RestsInIndentation b indent) : Text.bytes one.lineBefore < column := by
    have hkept : k = m := congrArg Text.bytes h.1
    have hlt : c < k := h.2
    rw [hrests h, hcolumn]
    change c < _
    omega
  have hallColumn : Text.bytes all.lineBefore = column := hall.bytes_lineBefore.trans hcolumn.symm
  refine ⟨⟨hall.lineIndex, hall.leadingSpace hblank, hallColumn⟩, ?_, ?_, ?_, hrests⟩
  · by_cases h : RestsInIndentation b indent
    · rw [hrests h]
      exact ⟨rfl, h.1, by rw [hall.currentLine, ← h.1, Text.leadingSpace_append_trimStart]⟩
    · have hplaced := hone h
      exact ⟨hplaced.lineIndex, hplaced.leadingSpace hblank,
        hplaced.currentLine.trans hall.currentLine.symm⟩
  · exact ⟨fun heq h => Nat.ne_of_lt (hinside h) heq,
      fun h => (hone h).bytes_lineBefore.trans hcolumn.symm⟩
  · refine ⟨fun heq h => Nat.ne_of_lt (hinside h) ?_,
      fun h => (hone h).lineBefore.trans hall.lineBefore.symm⟩
    rw [heq, hallColumn]

/-- Behind a wide blank and a space: the cursor between two letters stays between them. -/
theorem cursor_stays_between_letters :
    let b : Buffer := ⟨"fun\n\u3000 x".toList, "y\nend".toList, 0⟩
    let ctx : Context := ⟨⟨"> ".toList, "  ".toList⟩, 80⟩
    Text.isBlank [' ', ' '] = true ∧ '\n' ∉ [' ', ' '] ∧
      Text.bytes b.lineBefore = 5 ∧ Text.bytes (Text.leadingSpace b.currentLine) = 4 ∧
      Text.bytes (b.reindentAll Table.standard [' ', ' '] ctx).lineBefore = 3 ∧
      Text.bytes (b.reindentLine Table.standard [' ', ' '] ctx).1.lineBefore = 3 := by
  intro b ctx
  have hunit : Text.isBlank [' ', ' '] = true := by decide
  have hfeed : '\n' ∉ [' ', ' '] := by decide
  obtain ⟨⟨-, -, hall⟩, -, hone, -⟩ := cursor_after_reindenting hunit hfeed b Table.standard ctx
  have hmoved : ¬ RestsInIndentation b (indentation [' ', ' ']
      (indentFor (scan Table.standard (Text.lines b.text)) b.lineIndex)) :=
    fun h => absurd h.2 (by decide +kernel)
  have hcolumn : Text.bytes (indentation [' ', ' ']
      (indentFor (scan Table.standard (Text.lines b.text)) b.lineIndex)) + (5 - 4) = 3 := by
    decide +kernel
  exact ⟨hunit, hfeed, by decide +kernel, by decide +kernel, hall.trans hcolumn,
    (hone.mpr hmoved).trans hcolumn⟩

/-- At the start of a line that is indented already, the two differ. -/
theorem cursor_left_in_indentation :
    let b : Buffer := ⟨"fun f():\n".toList, "  1".toList, 0⟩
    let ctx : Context := ⟨⟨"> ".toList, "  ".toList⟩, 80⟩
    Text.bytes b.lineBefore = 0 ∧ Text.bytes (Text.leadingSpace b.currentLine) = 2 ∧
      Text.bytes (b.reindentAll Table.standard [' ', ' '] ctx).lineBefore = 2 ∧
      Text.bytes (b.reindentLine Table.standard [' ', ' '] ctx).1.lineBefore = 0 := by
  decide +kernel

end Promptline.Buffer
