import Promptline.Proofs.Buffer.Characters
import Promptline.Proofs.Buffer.Offsets

set_option autoImplicit false

namespace Promptline

open Display Indent

namespace Text

variable {above below l r : Text}

theorem indicesOf_feed_nil (h : '\n' ∉ l) : indicesOf (· == '\n') l = [] := by
  refine indicesOf_of_none fun c hc => ?_
  rw [beq_eq_false_iff_ne]
  rintro rfl
  exact h hc

theorem offset_after_lastFeed (habove : Buffer.Closed above) (hl : '\n' ∉ l) :
    ((indicesOf (· == '\n') (above ++ l)).getLast?.map (· + 1)).getD 0 = bytes above := by
  rw [indicesOf_append, indicesOf_feed_nil hl, List.map_nil, List.append_nil]
  rcases habove with rfl | habove
  · rfl
  · obtain ⟨rest, rfl⟩ := List.getLast?_eq_some_iff.mp habove
    rw [indicesOf_append, bytes_append]
    simp [indicesOf, bytes, show '\n'.utf8Size = 1 from rfl]

theorem lineRangeAt?_bytes (habove : Buffer.Closed above) (hl : '\n' ∉ l) (hr : '\n' ∉ r)
    (hbelow : Buffer.Opened below) :
    lineRangeAt? (above ++ l ++ (r ++ below)) (bytes (above ++ l)) =
      some (bytes above, bytes above + bytes (l ++ r)) := by
  have hstop : (indicesOf (· == '\n') (r ++ below)).head? =
      if below = [] then none else some (bytes r) := by
    refine indicesOf_head? (fun c hc => ?_) fun c hc => ?_
    · rw [beq_eq_false_iff_ne]
      rintro rfl
      exact hr hc
    · rcases hbelow with rfl | hbelow
      · cases hc
      · rw [hbelow] at hc
        cases hc
        rfl
  rw [lineRangeAt?, splitAt?_bytes]
  simp only [Option.bind_eq_bind, Option.bind_some, offset_after_lastFeed habove hl,
    hstop]
  split <;> simp [*, bytes_append, Nat.add_assoc]

theorem offsetAtColumn?_bytes (above line rest : Text) (column : Nat) :
    offsetAtColumn? (above ++ line ++ rest) (bytes above, bytes above + bytes line) column =
      some (bytes above + bytes (takeClusters column line)) := by
  rw [offsetAtColumn?, slice?_bytes]
  simp only [Option.bind_eq_bind, Option.bind_some, starts_getElem?]
  split
  · simp [takeClusters]
  · rename_i hlength
    have hall : takeClusters column line = line := by
      rw [takeClusters, List.take_of_length_le (Nat.le_of_not_lt hlength), clusters_flatten]
    simp [hall]

theorem leadingSpaceBytes?_eq (line : Text) :
    leadingSpaceBytes? line = some (bytes (leadingSpace line)) := by
  have hbytes := bytes_append (leadingSpace line) (trimStart line)
  rw [leadingSpace_append_trimStart, Nat.add_comm] at hbytes
  rw [leadingSpaceBytes?, hbytes, sub?_add]

theorem lineStart?_eq {n : Nat} {t : Text} (h : n ≤ t.count '\n') :
    lineStart? t n = some (bytes (splitAfterLines n t).1) := by
  obtain ⟨hcount, hclosed⟩ := Buffer.splitAfterLines_above h
  have hsplit := splitAfterLines_append n t
  cases n with
  | zero => cases t <;> rfl
  | succ n =>
    have hne : (splitAfterLines (n + 1) t).1 ≠ [] := by
      intro hnil
      rw [hnil] at hcount
      cases hcount
    obtain ⟨ls, hls⟩ := List.getLast?_eq_some_iff.mp (hclosed.resolve_left hne)
    have hlength : (indicesOf (· == '\n') ls).length = n := by
      rw [hls, List.count_append] at hcount
      rw [indicesOf_length]
      exact Nat.succ.inj hcount
    have hnth : (indicesOf (· == '\n') t)[n]? = some (bytes ls) := by
      rw [← hsplit, hls, List.append_assoc, indicesOf_append,
        List.getElem?_append_right (Nat.le_of_eq hlength), hlength, Nat.sub_self]
      simp [indicesOf]
    have hsub : sub? (n + 1) 1 = some n := if_pos (Nat.le_add_left 1 n)
    rw [lineStart?, if_neg (Nat.succ_ne_zero n), hsub, hls, bytes_append]
    simp [hnth, bytes, show '\n'.utf8Size = 1 from rfl]

theorem offsetInContent?_eq {n : Nat} {t : Text} (h : n ≤ t.count '\n') (content : Nat) :
    let line := (splitAfterLines n t).2.takeWhile (· != '\n')
    offsetInContent? t n content = some (bytes (splitAfterLines n t).1 +
      bytes (takeBytes (bytes (leadingSpace line) + content) line)) := by
  have hclosed := (Buffer.splitAfterLines_above h).2
  have hstart := lineStart?_eq h
  have htext := splitAfterLines_append n t
  rcases hsplit : splitAfterLines n t with ⟨above, rest⟩
  rw [hsplit] at hclosed hstart htext
  let lower : Buffer := ⟨[], rest, 0⟩
  let column := bytes (leadingSpace lower.lineAfter) + content
  have hparts : above ++ lower.lineAfter ++ lower.below = t := by
    rw [List.append_assoc, lower.lineAfter_append_below]
    exact htext
  have hrange := lineRangeAt?_bytes hclosed List.not_mem_nil lower.lineFeed_not_mem_lineAfter
    lower.opened_below
  have hline := slice?_bytes above lower.lineAfter lower.below
  rw [List.append_nil, List.nil_append, ← List.append_assoc, hparts] at hrange
  rw [hparts] at hline
  have hmin : min (bytes above + bytes (leadingSpace lower.lineAfter) + content)
      (bytes above + bytes lower.lineAfter) = bytes above + min column (bytes lower.lineAfter) := by
    omega
  have hcursor : takeBytes (bytes above + min column (bytes lower.lineAfter)) t =
      above ++ takeBytes column lower.lineAfter := by
    have hle := Nat.min_le_right column (bytes lower.lineAfter)
    rw [← hparts, List.append_assoc, takeBytes_bytes, takeBytes_append hle, takeBytes_min]
  simp only [offsetInContent?, hstart, hrange, hline, leadingSpaceBytes?_eq, snapDown?_eq, hmin, hcursor,
    bytes_append, Option.bind_eq_bind, Option.bind_some]
  rfl

end Text

namespace OffsetBuffer

open Text

variable (b : Buffer)

theorem of_text : (of b).text = b.text := rfl

theorem of_cursor : (of b).cursor = b.cursor := rfl

theorem of_screenRow : (of b).screenRow = b.screenRow := rfl

theorem splitAt?_of : splitAt? (of b).cursor (of b).text = some (b.before, b.after) :=
  splitAt?_bytes b.before b.after

theorem lineIndex?_of : (of b).lineIndex? = some b.lineIndex := by
  rw [lineIndex?, splitAt?_of]
  exact congrArg some (indicesOf_length _ b.before)

theorem isOnFirstLine?_of : (of b).isOnFirstLine? = some b.isOnFirstLine := by
  rw [isOnFirstLine?, splitAt?_of]
  rfl

theorem isOnLastLine?_of : (of b).isOnLastLine? = some b.isOnLastLine := by
  rw [isOnLastLine?, splitAt?_of]
  rfl

theorem lineRange?_of : (of b).lineRange? = some b.lineRange := by
  have hrange := lineRangeAt?_bytes b.closed_above b.lineFeed_not_mem_lineBefore
    b.lineFeed_not_mem_lineAfter b.opened_below
  rw [b.above_append_lineBefore, b.lineAfter_append_below] at hrange
  exact hrange

theorem lineRange_start : b.lineRange.1 = bytes b.above := rfl

theorem slice?_line : slice? (bytes b.above) b.lineRange.2 b.text = some b.currentLine := by
  rw [b.text_eq_lines]
  exact slice?_bytes _ _ _

theorem sub?_cursor : sub? b.cursor (bytes b.above) = some (bytes b.lineBefore) := by
  rw [b.cursor_eq, sub?_add]

theorem lineBefore?_of : (of b).lineBefore? = some b.lineBefore := by
  have hslice := slice?_bytes b.above b.lineBefore b.after
  rw [b.above_append_lineBefore, ← b.cursor_eq] at hslice
  rw [lineBefore?, lineRange?_of]
  exact hslice

theorem column?_of : (of b).column? = some b.column := by
  rw [column?, lineBefore?_of]
  rfl

theorem getLine?_of (offset : Int) (ignoreNewline : Bool) :
    (of b).getLine? offset ignoreNewline = some (b.getLine offset ignoreNewline) := by
  simp only [getLine?, Buffer.getLine, of_text, lineIndex?_of, Option.bind_eq_bind, Option.bind_some]
  by_cases hlines : splitLines b.text = []
  · have htext : b.text = [] := by
      rw [← splitLines_flatten b.text, hlines]
      rfl
    simp [htext, splitLines]
  · have hlength := List.length_pos_iff.mpr hlines
    have hlast : sub? (splitLines b.text).length 1 = some ((splitLines b.text).length - 1) :=
      if_pos hlength
    rw [if_neg (mt List.isEmpty_iff.mp hlines), hlast, Option.bind_some]
    have hlt : min (↑b.lineIndex + offset).toNat ((splitLines b.text).length - 1) <
        (splitLines b.text).length :=
      Nat.lt_of_le_of_lt (Nat.min_le_right _ _) (Nat.sub_one_lt (Nat.ne_of_gt hlength))
    rw [List.getElem?_eq_getElem hlt, apply_ite some]
    rfl

theorem cursorLayout?_of (ctx : Context) : (of b).cursorLayout? ctx = some (b.cursorLayout ctx) := by
  rw [cursorLayout?, splitAt?_of]
  exact layoutOf?_eq ctx b.before

theorem textLayout?_of (ctx : Context) : (of b).textLayout? ctx = some (b.textLayout ctx) :=
  layoutOf?_eq ctx b.text

theorem cursorRow?_of (ctx : Context) : (of b).cursorRow? ctx = some (b.cursorRow ctx) := by
  rw [cursorRow?, cursorLayout?_of]
  rfl

theorem insert?_of (t : Text) : (of b).insert? t = some (of (b.insert t)) := by
  simp [insert?, of, Buffer.text, Buffer.cursor, insertAt?_bytes, Buffer.insert, bytes_append]

theorem setText_of (t : Text) : (of b).setText t = of (b.setText t) := by
  simp [setText, of, Buffer.setText, Buffer.text, Buffer.cursor]

theorem moveToEnd_of : (of b).moveToEnd = of b.moveToEnd := by
  simp [moveToEnd, of, Buffer.moveToEnd, Buffer.text, Buffer.cursor]

section

variable {b}

theorem splitLastCluster?_of_getLast? {cluster : Text}
    (h : (clusters b.before).getLast? = some cluster) :
    ∃ kept, b.splitLastCluster? = some (kept, cluster) ∧ kept ++ cluster = b.before := by
  have hs : b.splitLastCluster? = some ((clusters b.before).dropLast.flatten, cluster) := by
    rw [Buffer.splitLastCluster?, h]
    rfl
  exact ⟨_, hs, Buffer.splitLastCluster?_append hs⟩

theorem splitFirstCluster?_of_head? {cluster : Text}
    (h : (clusters b.after).head? = some cluster) :
    ∃ kept, b.splitFirstCluster? = some (cluster, kept) ∧ cluster ++ kept = b.after := by
  obtain ⟨rest, hrest⟩ := List.head?_eq_some_iff.mp h
  have hs : b.splitFirstCluster? = some (cluster, rest.flatten) := by
    rw [Buffer.splitFirstCluster?, hrest]
  exact ⟨_, hs, Buffer.splitFirstCluster?_append hs⟩

end

theorem deleteBefore?_of : (of b).deleteBefore? = some (b.deleteBefore?.map of) := by
  rw [deleteBefore?, splitAt?_of]
  cases hlast : (clusters b.before).getLast? with
  | none => simp [Buffer.deleteBefore?, Buffer.splitLastCluster?, hlast]
  | some cluster =>
    obtain ⟨kept, hs, hbefore⟩ :=
      splitLastCluster?_of_getLast? hlast
    have hcursor : b.cursor = bytes kept + bytes cluster := by
      rw [Buffer.cursor, ← hbefore, bytes_append]
    have hsub : sub? b.cursor (bytes cluster) = some (bytes kept) := by
      rw [hcursor, Nat.add_comm, sub?_add]
    have hreplace : replaceRange? (bytes kept) b.cursor [] b.text = some (kept ++ [] ++ b.after) := by
      rw [hcursor, Buffer.text, ← hbefore, replaceRange?_bytes]
    simp only [of_text, of_cursor, hlast, hsub, hreplace, Option.bind_eq_bind, Option.bind_some,
      Buffer.deleteBefore?, hs]
    simp [of, Buffer.text, Buffer.cursor]

theorem deleteAfter?_of : (of b).deleteAfter? = some (b.deleteAfter?.map of) := by
  rw [deleteAfter?, splitAt?_of]
  cases hfirst : (clusters b.after).head? with
  | none => simp [Buffer.deleteAfter?, Buffer.splitFirstCluster?, List.head?_eq_none_iff.mp hfirst]
  | some cluster =>
    obtain ⟨kept, hs, hafter⟩ :=
      splitFirstCluster?_of_head? hfirst
    have hreplace : replaceRange? b.cursor (b.cursor + bytes cluster) [] b.text =
        some (b.before ++ [] ++ kept) := by
      rw [Buffer.text, ← hafter, ← List.append_assoc, Buffer.cursor, replaceRange?_bytes]
    simp only [of_text, of_cursor, hfirst, hreplace, Option.bind_eq_bind, Option.bind_some,
      Buffer.deleteAfter?, hs]
    simp [of, Buffer.text, Buffer.cursor]

theorem moveLeft?_of : (of b).moveLeft? = some (b.moveLeft?.map of) := by
  rw [moveLeft?, splitAt?_of]
  cases hlast : (clusters b.before).getLast? with
  | none => simp [Buffer.moveLeft?, Buffer.splitLastCluster?, hlast]
  | some cluster =>
    obtain ⟨kept, hs, hbefore⟩ :=
      splitLastCluster?_of_getLast? hlast
    have hsub : sub? b.cursor (bytes cluster) = some (bytes kept) := by
      rw [Buffer.cursor, ← hbefore, bytes_append, Nat.add_comm, sub?_add]
    simp only [of_cursor, hlast, hsub, Option.bind_eq_bind, Option.bind_some, Buffer.moveLeft?, hs]
    simp [of, Buffer.text, Buffer.cursor, ← hbefore]

theorem moveRight?_of : (of b).moveRight? = some (b.moveRight?.map of) := by
  rw [moveRight?, splitAt?_of]
  cases hfirst : (clusters b.after).head? with
  | none => simp [Buffer.moveRight?, Buffer.splitFirstCluster?, List.head?_eq_none_iff.mp hfirst]
  | some cluster =>
    obtain ⟨kept, hs, hafter⟩ :=
      splitFirstCluster?_of_head? hfirst
    simp only [of_cursor, hfirst, Option.bind_eq_bind, Option.bind_some, Buffer.moveRight?, hs]
    simp [of, Buffer.text, Buffer.cursor, ← hafter, bytes_append]

theorem eq_of {b : Buffer} {o : OffsetBuffer} (htext : o.text = b.text) (hcursor : o.cursor = b.cursor)
    (hrow : o.screenRow = b.screenRow) : o = of b := by
  rw [of, ← htext, ← hcursor, ← hrow]

theorem moveToLineStart?_of : (of b).moveToLineStart? = some (of b.moveToLineStart) := by
  rw [moveToLineStart?, lineRange?_of]
  exact congrArg some (eq_of b.moveToLineStart_text.symm rfl rfl)

theorem moveToLineEnd?_of : (of b).moveToLineEnd? = some (of b.moveToLineEnd) := by
  have hstop : b.lineRange.2 = b.moveToLineEnd.cursor := by
    rw [Buffer.moveToLineEnd, Buffer.cursor, bytes_append, Buffer.lineRange, Buffer.currentLine,
      bytes_append, ← Nat.add_assoc, ← bytes_append, b.above_append_lineBefore]
  rw [moveToLineEnd?, lineRange?_of]
  exact congrArg some (eq_of b.moveToLineEnd_text.symm hstop rfl)

/-- Going to a column of another line, from any offset in that line. -/
theorem toColumn_of {above l r rest : Text} (htext : b.text = above ++ (l ++ r) ++ rest)
    (habove : Buffer.Closed above) (hl : '\n' ∉ l) (hr : '\n' ∉ r) (hrest : Buffer.Opened rest)
    (column : Nat) :
    ((lineRangeAt? b.text (bytes (above ++ l))).bind fun range =>
      (offsetAtColumn? b.text range column).bind fun cursor => some (some { of b with cursor })) =
      some (some (of (b.atColumn above (l ++ r) rest column))) := by
  have hrange := lineRangeAt?_bytes habove hl hr hrest
  have hcolumn := offsetAtColumn?_bytes above (l ++ r) rest column
  have hcut : above ++ l ++ (r ++ rest) = b.text := by rw [htext]; simp
  rw [hcut] at hrange
  rw [← htext] at hcolumn
  rw [hrange, Option.bind_some, hcolumn, Option.bind_some, ← bytes_append]
  refine congrArg (some ∘ some) (eq_of ?_ rfl rfl)
  rw [Buffer.atColumn_text]
  exact htext

theorem moveToPrevLine?_of : (of b).moveToPrevLine? = some (b.moveToPrevLine?.map of) := by
  rw [moveToPrevLine?, lineRange?_of]
  by_cases habove : b.above = []
  · simp [Buffer.moveToPrevLine?, Buffer.lineRange, habove, bytes]
  · obtain ⟨above, line, hclosed, hline, heq⟩ := Buffer.exists_line_above habove
    have hstart : b.lineRange.1 = 1 + bytes (above ++ line) := by
      rw [lineRange_start, heq, bytes_append, Nat.add_comm]
      rfl
    have hne : ¬ b.lineRange.1 = 0 := by omega
    have hsub : sub? b.lineRange.1 1 = some (bytes (above ++ line)) := by rw [hstart, sub?_add]
    have htext : b.text = above ++ (line ++ []) ++ '\n' :: (b.currentLine ++ b.below) := by
      rw [b.text_eq_lines, heq]
      simp
    have hmoved := toColumn_of b htext hclosed hline List.not_mem_nil (Or.inr rfl) b.column
    rw [List.append_nil] at hmoved
    simp only [Option.bind_eq_bind, Option.bind_some, if_neg hne, column?_of, hsub,
      Buffer.moveToPrevLine?_of_above hclosed hline heq]
    exact hmoved

theorem moveToNextLine?_of : (of b).moveToNextLine? = some (b.moveToNextLine?.map of) := by
  have hbytes := b.bytes_text
  rw [moveToNextLine?, lineRange?_of]
  by_cases hbelow : b.below = []
  · rw [hbelow, bytes, Nat.add_zero] at hbytes
    simp [of, hbytes, Buffer.moveToNextLine?, hbelow]
  · obtain ⟨line, rest, hopened, hline, heq⟩ := Buffer.exists_line_below hbelow
    let above : Text := b.above ++ b.currentLine ++ ['\n']
    have habove : bytes (above ++ []) = b.lineRange.2 + 1 := by
      rw [List.append_nil, bytes_append, bytes_append, Buffer.lineRange]
      rfl
    have hne : ¬ b.lineRange.2 = bytes b.text := by
      have hpos := bytes_pos hbelow
      omega
    have htext : b.text = above ++ ([] ++ line) ++ rest := by
      rw [b.text_eq_lines, heq]
      simp [above]
    have hmoved := toColumn_of b htext (Or.inr (by simp [above])) List.not_mem_nil hline hopened b.column
    rw [habove, List.nil_append] at hmoved
    simp only [Option.bind_eq_bind, Option.bind_some, of_text, if_neg hne, column?_of,
      Buffer.moveToNextLine?_of_below hopened hline heq]
    exact hmoved

theorem replaceLine?_of (line : Text) : (of b).replaceLine? line = some (of (b.replaceLine line)) := by
  let start := takeBytes (bytes line - bytes b.lineAfter) line
  have hfromEnd : sub? b.lineRange.2 b.cursor = some (bytes b.lineAfter) := by
    rw [Buffer.lineRange, Buffer.currentLine, bytes_append, ← Nat.add_assoc, ← b.cursor_eq, sub?_add]
  have hreplace : replaceRange? b.lineRange.1 b.lineRange.2 line b.text =
      some (b.above ++ line ++ b.below) := by
    rw [b.text_eq_lines]
    exact replaceRange?_bytes _ _ _ _
  have hmax : max (b.lineRange.1 + bytes line - bytes b.lineAfter) b.lineRange.1 =
      bytes b.above + (bytes line - bytes b.lineAfter) := by
    rw [Buffer.lineRange]
    omega
  have hcursor : takeBytes (bytes b.above + (bytes line - bytes b.lineAfter))
      (b.above ++ line ++ b.below) = b.above ++ start := by
    rw [List.append_assoc, takeBytes_bytes, takeBytes_append (Nat.sub_le _ _)]
  simp only [replaceLine?, lineRange?_of, of_text, of_cursor, hfromEnd, hreplace, hmax, snapDown?_eq,
    hcursor, Option.bind_eq_bind, Option.bind_some]
  exact congrArg some (eq_of (b.replaceLine_text line).symm rfl rfl)

theorem updateScreenRow?_of (ctx : Context) :
    (of b).updateScreenRow? ctx = some (of (b.updateScreenRow ctx)) := by
  rw [updateScreenRow?, cursorRow?_of]
  rfl

theorem text_of_leadingSpace :
    b.text = b.above ++ leadingSpace b.currentLine ++ (trimStart b.currentLine ++ b.below) := by
  have hline := leadingSpace_append_trimStart b.currentLine
  rw [List.append_assoc, ← List.append_assoc (leadingSpace _), hline, ← List.append_assoc, b.text_eq_lines]

theorem withIndentation_cursor (indent : Text) : (b.withIndentation indent).cursor =
    bytes b.above + bytes indent +
      (bytes b.lineBefore - bytes (leadingSpace b.currentLine)) := by
  rw [Buffer.withIndentation, Buffer.cursor, bytes_append, bytes_append, b.bytes_trimStart_lineBefore]

theorem withIndentation_of (indent : Text) :
    ⟨b.above ++ indent ++ (trimStart b.currentLine ++ b.below), bytes b.above + bytes indent +
      (bytes b.lineBefore - bytes (leadingSpace b.currentLine)), b.screenRow⟩ =
        of (b.withIndentation indent) :=
  eq_of (b.withIndentation_text indent).symm (withIndentation_cursor b indent).symm rfl

theorem reindentLine?_of (table : Table) (unit : Text) (ctx : Context) :
    (of b).reindentLine? table unit ctx =
      some (of (b.reindentLine table unit ctx).1, (b.reindentLine table unit ctx).2) := by
  let rest := trimStart b.currentLine ++ b.below
  have hleading := slice?_bytes b.above (leadingSpace b.currentLine) rest
  have hreplace := replaceRange?_bytes b.above (leadingSpace b.currentLine) rest
    (b.lineIndentation table unit)
  rw [← text_of_leadingSpace] at hleading hreplace
  have hindent : Buffer.indentation unit (indentFor (scan table
      ((lines b.text).take (b.lineIndex + 1))) b.lineIndex) = b.lineIndentation table unit := rfl
  have hmoved := withIndentation_of b (b.lineIndentation table unit)
  simp only [reindentLine?, lineIndex?_of, lineRange?_of, of_text, of_cursor, of_screenRow, scan?_eq,
    lineRange_start, slice?_line, leadingSpaceBytes?_eq, Option.bind_eq_bind, Option.bind_some, hleading,
    hindent, sub?_cursor, hreplace, cursorRow?_of, Buffer.reindentLine]
  split
  · rfl
  · rw [hmoved, cursorRow?_of, Option.bind_some]
    refine congrArg some (Prod.ext (eq_of ?_ ?_ rfl) rfl)
    · exact (b.withIndentation_text _).symm
    · exact (withIndentation_cursor b _).symm

theorem reindentedLines?_eq (table : Table) (unit t : Text) :
    reindentedLines? table unit t = some (Buffer.reindentedLines table unit t) := by
  rw [reindentedLines?, scan?_eq]
  rfl

theorem reindentAll?_of (table : Table) (unit : Text) (ctx : Context) :
    (of b).reindentAll? table unit ctx = some (of (b.reindentAll table unit ctx)) := by
  let reindented := joinLines (Buffer.reindentedLines table unit b.text)
  let rest := (splitAfterLines b.lineIndex reindented).2
  let line := rest.takeWhile (· != '\n')
  let content := bytes b.lineBefore - bytes (leadingSpace b.currentLine)
  let start := takeBytes (bytes (leadingSpace line) + content) line
  let moved : Buffer := ⟨(splitAfterLines b.lineIndex reindented).1 ++ start,
    rest.drop start.length, b.screenRow⟩
  have htext : moved.text = reindented := Buffer.reindentAll_text b table unit ctx
  have hcursor : offsetInContent? reindented b.lineIndex content = some moved.cursor := by
    rw [offsetInContent?_eq (Buffer.lineIndex_le_count b table unit), Buffer.cursor, bytes_append]
  simp only [reindentAll?, lineIndex?_of, lineRange?_of, of_text, of_cursor, lineRange_start, slice?_line,
    leadingSpaceBytes?_eq, sub?_cursor, reindentedLines?_eq, Option.bind_eq_bind, Option.bind_some]
  change (offsetInContent? reindented b.lineIndex content).bind _ = _
  rw [hcursor, Option.bind_some]
  have hmoved : ⟨reindented, moved.cursor, b.screenRow⟩ = of moved := eq_of htext.symm rfl rfl
  change OffsetBuffer.updateScreenRow? ⟨reindented, moved.cursor, b.screenRow⟩ ctx = _
  rw [hmoved]
  exact updateScreenRow?_of moved ctx

open Buffer (Operation)

theorem operate?_of (op : Operation) : (of b).operate? op = some (of (b.apply op)) := by
  have hgetD (move : Option Buffer) : (move.map of).getD (of b) = of (move.getD b) := by
    cases move <;> rfl
  cases op with
  | reset => rfl
  | setText t => exact congrArg some (setText_of b t)
  | insert t => exact insert?_of b t
  | deleteBefore => rw [operate?, deleteBefore?_of, Option.map_some, hgetD]; rfl
  | deleteAfter => rw [operate?, deleteAfter?_of, Option.map_some, hgetD]; rfl
  | moveLeft => rw [operate?, moveLeft?_of, Option.map_some, hgetD]; rfl
  | moveRight => rw [operate?, moveRight?_of, Option.map_some, hgetD]; rfl
  | moveToStart => rfl
  | moveToEnd => exact congrArg some (moveToEnd_of b)
  | moveToLineStart => exact moveToLineStart?_of b
  | moveToLineEnd => exact moveToLineEnd?_of b
  | moveToPrevLine => rw [operate?, moveToPrevLine?_of, Option.map_some, hgetD]; rfl
  | moveToNextLine => rw [operate?, moveToNextLine?_of, Option.map_some, hgetD]; rfl
  | replaceLine line => exact replaceLine?_of b line
  | reindentLine table unit ctx => rw [operate?, reindentLine?_of]; rfl
  | reindentAll table unit ctx => exact reindentAll?_of b table unit ctx
  | updateScreenRow ctx => exact updateScreenRow?_of b ctx

theorem run?_eq (ops : List Operation) : run? ops = some (of (Buffer.run ops)) := by
  have hfrom (b : Buffer) : ops.foldlM operate? (of b) = some (of (ops.foldl Buffer.apply b)) := by
    induction ops generalizing b with
    | nil => rfl
    | cons op ops ih =>
      rw [List.foldlM_cons, operate?_of]
      exact ih _
  exact hfrom Buffer.empty

/-- What can be asked of a buffer is answered by byte offsets as it is by the split text. -/
structure Answers (o : OffsetBuffer) (b : Buffer) : Prop where
  lineIndex : o.lineIndex? = some b.lineIndex
  isOnFirstLine : o.isOnFirstLine? = some b.isOnFirstLine
  isOnLastLine : o.isOnLastLine? = some b.isOnLastLine
  lineRange : o.lineRange? = some b.lineRange
  lineBefore : o.lineBefore? = some b.lineBefore
  getLine : ∀ offset ignoreNewline,
    o.getLine? offset ignoreNewline = some (b.getLine offset ignoreNewline)
  cursorLayout : ∀ ctx, o.cursorLayout? ctx = some (b.cursorLayout ctx)
  textLayout : ∀ ctx, o.textLayout? ctx = some (b.textLayout ctx)

theorem answers_of : (of b).Answers b where
  lineIndex := lineIndex?_of b
  isOnFirstLine := isOnFirstLine?_of b
  isOnLastLine := isOnLastLine?_of b
  lineRange := lineRange?_of b
  lineBefore := lineBefore?_of b
  getLine := getLine?_of b
  cursorLayout := cursorLayout?_of b
  textLayout := textLayout?_of b

/-- Whatever is done to a buffer, no access by a byte offset fails, neither of the operations nor of any
query after them, and the cursor is never inside a character or past the end. -/
theorem no_access_fails (ops : List Operation) :
    ∃ o, run? ops = some o ∧ o = of (Buffer.run ops) ∧ o.Answers (Buffer.run ops) ∧
      o.cursor ≤ bytes o.text ∧ isBoundary o.cursor o.text = true := by
  let b := Buffer.run ops
  have hcursor : b.cursor ≤ bytes b.text := by
    rw [Buffer.text, bytes_append]
    exact Nat.le_add_right _ _
  exact ⟨of b, run?_eq ops, rfl, answers_of b, hcursor,
    isBoundary_iff.mpr ⟨b.before, b.after, rfl, rfl⟩⟩

end OffsetBuffer
end Promptline
