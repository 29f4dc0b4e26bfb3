import Promptline.Proofs.Buffer.Placement

set_option autoImplicit false

namespace Promptline.Buffer

open Display Indent

variable {table : Table} {unit t t' : Text} {b : Buffer} {ls ls' ls'' : List Text}
  {chosen chosen' order : List Nat}

def Reindented (table : Table) (unit : Text) (chosen : List Nat) (ls ls' : List Text) : Prop :=
  ∀ i, ls'[i]? = ls[i]?.map fun line =>
    if i ∈ chosen then indentation unit (indentFor (scan table ls) i) ++ Text.trimStart line else line

namespace Reindented

theorem refl (table : Table) (unit : Text) (ls : List Text) : Reindented table unit [] ls ls := by
  intro i
  simp

theorem length_eq (h : Reindented table unit chosen ls ls') : ls'.length = ls.length := by
  have hnone (i : Nat) : ls'[i]? = none ↔ ls[i]? = none := by rw [h i, Option.map_eq_none_iff]
  simp only [List.getElem?_eq_none_iff] at hnone
  exact Nat.le_antisymm ((hnone _).mpr (Nat.le_refl _)) ((hnone _).mp (Nat.le_refl _))

theorem map_trim (h : Reindented table unit chosen ls ls') (hunit : Text.isBlank unit = true) :
    ls'.map Text.trim = ls.map Text.trim := by
  apply List.ext_getElem?
  intro i
  rw [List.getElem?_map, List.getElem?_map, h i, Option.map_map]
  refine congrArg (Option.map · _) (funext fun line => ?_)
  simp only [Function.comp_apply]
  split
  · exact Text.trim_indented (isBlank_indentation hunit _) line
  · rfl

theorem finishes (h : Reindented table unit chosen ls ls') (hunit : Text.isBlank unit = true)
    (hls : ∀ line ∈ ls, table.Finishes line) : ∀ line ∈ ls', table.Finishes line := by
  intro line' hline'
  have htrimmed : Text.trim line' ∈ ls.map Text.trim := by
    rw [← h.map_trim hunit]
    exact List.mem_map_of_mem hline'
  obtain ⟨line, hline, heq⟩ := List.mem_map.mp htrimmed
  obtain ⟨ts, hts⟩ := hls line hline
  exact ⟨ts, heq ▸ hts⟩

theorem scan (h : Reindented table unit chosen ls ls') (hunit : Text.isBlank unit = true)
    (hls : ∀ line ∈ ls, table.Finishes line) : scan table ls' = scan table ls :=
  (scan_congr hls (h.map_trim hunit).symm).symm

/-- A line that is reindented twice gets the same indentation. -/
theorem trans (h : Reindented table unit chosen ls ls') (h' : Reindented table unit chosen' ls' ls'')
    (hunit : Text.isBlank unit = true) (hls : ∀ line ∈ ls, table.Finishes line) :
    Reindented table unit (chosen ++ chosen') ls ls'' := by
  intro i
  rw [h' i, h i, h.scan hunit hls, Option.map_map]
  refine congrArg (Option.map · _) (funext fun line => ?_)
  have hagain (n : Nat) : Text.trimStart (indentation unit n ++ Text.trimStart line) =
      Text.trimStart line := by
    rw [Text.trimStart_blank_append (isBlank_indentation hunit n), Text.trimStart_trimStart]
  by_cases hi : i ∈ chosen <;> by_cases hi' : i ∈ chosen' <;> simp [hi, hi', hagain]

theorem unique (h : Reindented table unit chosen ls ls') (h' : Reindented table unit chosen' ls ls'')
    (hsame : ∀ i < ls.length, i ∈ chosen ↔ i ∈ chosen') : ls' = ls'' := by
  apply List.ext_getElem?
  intro i
  rw [h i, h' i]
  rcases Nat.lt_or_ge i ls.length with hi | hi
  · simp only [hsame i hi]
  · rw [List.getElem?_eq_none hi]
    rfl

end Reindented

theorem reindentLine_reindented (hfeed : '\n' ∉ unit) (b : Buffer) (table : Table) (ctx : Context) :
    Reindented table unit [b.lineIndex] (Text.lines b.text)
      (Text.lines (b.reindentLine table unit ctx).1.text) := by
  have hline : '\n' ∉ b.lineIndentation table unit ++ Text.trimStart b.currentLine :=
    not_mem_indented (not_mem_indentation hfeed _) b.lineFeed_not_mem_currentLine
  have hcurrent := lines_getElem?_lineIndex b
  obtain ⟨hindex, -⟩ := List.getElem?_eq_some_iff.mp hcurrent
  intro i
  rw [reindentLine_text, lines_set b hline]
  by_cases hi : i = b.lineIndex
  · rw [hi, List.getElem?_set_self hindex, hcurrent, Option.map_some,
      if_pos (List.mem_singleton_self _), lineIndentation_of_frames]
  · rw [List.getElem?_set_ne (Ne.symm hi)]
    simp [hi]

theorem reindentedLines_reindented (table : Table) (unit t : Text) :
    Reindented table unit (List.range (Text.lines t).length) (Text.lines t)
      (reindentedLines table unit t) := by
  intro i
  rw [reindentedLines_getElem?]
  cases hline : (Text.lines t)[i]? with
  | none => rfl
  | some line =>
    obtain ⟨hi, -⟩ := List.getElem?_eq_some_iff.mp hline
    rw [Option.map_some, Option.map_some, if_pos (List.mem_range.mpr hi)]

theorem reindentAll_reindented (hfeed : '\n' ∉ unit) (b : Buffer) (table : Table) (ctx : Context) :
    Reindented table unit (List.range (Text.lines b.text).length) (Text.lines b.text)
      (Text.lines (b.reindentAll table unit ctx).text) := by
  rw [reindentAll_text, lines_joinLines_reindented hfeed]
  exact reindentedLines_reindented table unit b.text

theorem reindentAll_indented (hunit : Text.isBlank unit = true) (hfeed : '\n' ∉ unit)
    (hfinishes : ∀ line ∈ Text.lines b.text, table.Finishes line) (ctx : Context) :
    Indented table unit (Text.lines (b.reindentAll table unit ctx).text) := by
  intro above line below hlines
  have hreindented := reindentAll_reindented hfeed b table ctx
  have hframes := hreindented.scan hunit hfinishes
  have hline := hreindented above.length
  rw [hlines, List.getElem?_append_right (Nat.le_refl _), Nat.sub_self, List.getElem?_cons_zero,
    ← hframes, hlines, indentFor_scan] at hline
  obtain ⟨old, hold, hnew⟩ := Option.map_eq_some_iff.mp hline.symm
  obtain ⟨hindex, -⟩ := List.getElem?_eq_some_iff.mp hold
  rw [if_pos (List.mem_range.mpr hindex)] at hnew
  have hspace := congrArg Text.leadingSpace hnew
  rw [Text.leadingSpace_indented (isBlank_indentation hunit _)] at hspace
  exact hspace.symm

/-- In an indented text reindenting leaves a cursor where it is that is not inside an indentation. -/
theorem reindentAll_fixed (h : Indented table unit (Text.lines b.text))
    (hcursor : Text.bytes (Text.leadingSpace b.currentLine) ≤ Text.bytes b.lineBefore)
    (ctx : Context) : b.reindentAll table unit ctx = b.updateScreenRow ctx := by
  have hjoined : Text.joinLines (reindentedLines table unit b.text) = b.text := by
    rw [reindentedLines_of_indented h, Text.joinLines_lines]
  have hsplit : Text.splitAfterLines b.lineIndex b.text = (b.above, b.currentLine ++ b.below) := by
    rw [text_eq_lines, List.append_assoc, ← count_above, splitAfterLines_of_closed b.closed_above]
  have hline : (b.currentLine ++ b.below).takeWhile (· != '\n') = b.currentLine :=
    (takeWhile_line (lineFeed_not_mem_currentLine b) b.opened_below).1
  have htaken : Text.takeBytes (Text.bytes (Text.leadingSpace b.currentLine) +
      (Text.bytes b.lineBefore - Text.bytes (Text.leadingSpace b.currentLine))) b.currentLine =
        b.lineBefore := by
    rw [Nat.add_sub_cancel' hcursor, currentLine]
    exact (Text.takeBytes_bytes 0 b.lineBefore b.lineAfter).trans
      (by rw [Text.takeBytes_zero, List.append_nil])
  have hrest : (b.currentLine ++ b.below).drop b.lineBefore.length = b.after := by
    rw [currentLine, List.append_assoc, lineAfter_append_below, List.drop_left]
  simp only [reindentAll, hjoined, hsplit, hline, htaken, hrest, above_append_lineBefore]

/-- Reindents the lines with these indices in turn, the cursor anywhere on the line, whatever the
prompts, the width and the row of the cursor are at the time. -/
inductive LineByLine (table : Table) (unit : Text) : List Nat → Text → Text → Prop
  | nil {t : Text} : LineByLine table unit [] t t
  | cons {b : Buffer} {ctx : Context} {order : List Nat} {t' : Text} :
      LineByLine table unit order (b.reindentLine table unit ctx).1.text t' →
      LineByLine table unit (b.lineIndex :: order) b.text t'

theorem LineByLine.reindented (h : LineByLine table unit order t t')
    (hunit : Text.isBlank unit = true) (hfeed : '\n' ∉ unit)
    (hfinishes : ∀ line ∈ Text.lines t, table.Finishes line) :
    Reindented table unit order (Text.lines t) (Text.lines t') := by
  induction h with
  | nil => exact Reindented.refl _ _ _
  | @cons b ctx order t' _ ih =>
    have hfirst := reindentLine_reindented hfeed b table ctx
    exact hfirst.trans (ih (hfirst.finishes hunit hfinishes)) hunit hfinishes

/-- The cursor can be put on any line. -/
theorem exists_lineByLine (hfeed : '\n' ∉ unit) (table : Table)
    (h : ∀ i ∈ order, i < (Text.lines t).length) : ∃ t', LineByLine table unit order t t' := by
  induction order generalizing t with
  | nil => exact ⟨t, .nil⟩
  | cons i order ih =>
    obtain ⟨hi, horder⟩ := List.forall_mem_cons.mp h
    let parts := Text.splitAfterLines i t
    let b : Buffer := ⟨parts.1, parts.2, 0⟩
    let ctx : Context := ⟨⟨[], []⟩, 1⟩
    have hcount : i ≤ t.count '\n' := by
      rw [Text.lines, Text.split_length] at hi
      exact Nat.le_of_lt_succ hi
    have htext : b.text = t := Text.splitAfterLines_append i t
    have hindex : b.lineIndex = i := (splitAfterLines_above hcount).1
    have hlength : (Text.lines (b.reindentLine table unit ctx).1.text).length =
        (Text.lines t).length := by
      rw [(reindentLine_reindented hfeed b table ctx).length_eq, htext]
    obtain ⟨t', ht'⟩ := ih fun j hj => hlength ▸ horder j hj
    have hrun := LineByLine.cons ht'
    rw [hindex, htext] at hrun
    exact ⟨t', hrun⟩

/-- Reindenting gives every line the indentation of its frame in the text as it was and changes no
frame. Reindenting one line changes the white space before it alone, reindenting each line, in any
order, comes to the same as reindenting all at once, and doing that again changes nothing. -/
theorem reindenting_agrees (hunit : Text.isBlank unit = true) (hfeed : '\n' ∉ unit)
    (hfinishes : ∀ line ∈ Text.lines b.text, table.Finishes line) (ctx : Context) :
    let frames := scan table (Text.lines b.text)
    let all := b.reindentAll table unit ctx
    (∀ i, (Text.lines all.text)[i]? = (Text.lines b.text)[i]?.map fun line =>
        indentation unit (indentFor frames i) ++ Text.trimStart line) ∧
      scan table (Text.lines all.text) = frames ∧
      scan table (Text.lines (b.reindentLine table unit ctx).1.text) = frames ∧
      (∀ (c : Buffer) (ctx' : Context), c.text = c.above ++ (Text.leadingSpace c.currentLine ++
          Text.trimStart c.currentLine) ++ c.below ∧
        (c.reindentLine table unit ctx').1.text = c.above ++
          (indentation unit (indentFor (scan table (Text.lines c.text)) c.lineIndex) ++
            Text.trimStart c.currentLine) ++ c.below) ∧
      (∀ order : List Nat, (∀ i, i ∈ order ↔ i < (Text.lines b.text).length) →
        ∀ t, LineByLine table unit order b.text t ↔ t = all.text) ∧
      all.reindentAll table unit ctx = all := by
  intro frames all
  have hall := reindentAll_reindented hfeed b table ctx
  refine ⟨fun i => ?_, hall.scan hunit hfinishes,
    (reindentLine_reindented hfeed b table ctx).scan hunit hfinishes, fun c ctx' => ⟨?_, ?_⟩, ?_, ?_⟩
  · rw [reindentAll_text, lines_joinLines_reindented hfeed, reindentedLines_getElem?]
  · rw [Text.leadingSpace_append_trimStart, ← text_eq_lines]
  · rw [reindentLine_text, lineIndentation_of_frames]
  · intro order horder t
    have hsame {t : Text} (h : LineByLine table unit order b.text t) : t = all.text := by
      have hlines := (h.reindented hunit hfeed hfinishes).unique hall fun i _ => by
        rw [horder, List.mem_range]
      rw [← Text.joinLines_lines t, hlines, Text.joinLines_lines]
    refine ⟨hsame, ?_⟩
    rintro rfl
    obtain ⟨t, ht⟩ := exists_lineByLine hfeed table fun i hi => (horder i).mp hi
    rwa [hsame ht] at ht
  · have hplaced := reindentAll_placed hunit hfeed b table ctx
    have hblank : Text.isBlank (b.lineIndentation table unit) = true := isBlank_indentation hunit _
    have hcursor : Text.bytes (Text.leadingSpace all.currentLine) ≤ Text.bytes all.lineBefore := by
      rw [hplaced.leadingSpace hblank, hplaced.lineBefore, Text.bytes_append]
      exact Nat.le_add_right _ _
    exact (reindentAll_fixed (reindentAll_indented hunit hfeed hfinishes ctx) hcursor ctx).trans rfl

/-- Arms, a wide blank and a tab, reindented in no order. -/
theorem reindented_out_of_order :
    let b : Buffer := ⟨"if x:\n    1\n\u3000else:\n2".toList, "\n\t end".toList, 3⟩
    let ctx : Context := ⟨⟨"> ".toList, "  ".toList⟩, 80⟩
    let all := b.reindentAll Table.standard [' ', ' '] ctx
    Text.isBlank [' ', ' '] = true ∧ '\n' ∉ [' ', ' '] ∧
      (∀ line ∈ Text.lines b.text, Table.standard.Finishes line) ∧
      all.text = "if x:\n  1\nelse:\n  2\nend".toList ∧
      LineByLine Table.standard [' ', ' '] [3, 1, 4, 0, 2] b.text all.text ∧
      scan Table.standard (Text.lines all.text) = scan Table.standard (Text.lines b.text) ∧
      all.reindentAll Table.standard [' ', ' '] ctx = all := by
  intro b ctx all
  have hunit : Text.isBlank [' ', ' '] = true := by decide
  have hfeed : '\n' ∉ [' ', ' '] := by decide
  have hfinishes : ∀ line ∈ Text.lines b.text, Table.standard.Finishes line :=
    fun line _ => advances_standard.finishes line
  have horder : ∀ i, i ∈ [3, 1, 4, 0, 2] ↔ i < (Text.lines b.text).length := by
    intro i
    have hlength : (Text.lines b.text).length = 5 := by decide +kernel
    simp only [List.mem_cons, List.not_mem_nil, or_false, hlength]
    omega
  obtain ⟨-, hframes, -, -, hany, hagain⟩ := reindenting_agrees hunit hfeed hfinishes ctx
  exact ⟨hunit, hfeed, hfinishes, by decide +kernel, (hany _ horder all.text).mpr rfl, hframes, hagain⟩

end Promptline.Buffer
