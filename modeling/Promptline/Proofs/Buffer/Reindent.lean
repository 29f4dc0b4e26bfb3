import Promptline.Proofs.Buffer.Characters
import Promptline.Proofs.Buffer.Lines
import Promptline.Proofs.Indent.Tokens

set_option autoImplicit false

namespace Promptline

namespace Indent

variable {table : Table} {ls : List Text}

theorem foldl_advance_prefix (table : Table) (frames : List Frame) (ls : List Text) :
    frames <+: ls.foldl (advance table) frames := by
  induction ls generalizing frames with
  | nil => exact List.prefix_refl frames
  | cons line rest ih => exact (List.prefix_append frames _).trans (ih _)

theorem scan_prefix (table : Table) (ls rest : List Text) :
    scan table ls <+: scan table (ls ++ rest) := by
  rw [scan, scan, List.foldl_append]
  exact foldl_advance_prefix table _ rest

def depthBelow (table : Table) (above : List Text) (line : Text) : Nat :=
  (frameFor table (scan table above) line).depth

theorem depthBelow_congr {l l' : Text} (hl : table.Finishes l) (h : Text.trim l = Text.trim l')
    (above : List Text) : depthBelow table above l = depthBelow table above l' := by
  rw [depthBelow, depthBelow, frameFor_congr hl h]

/-- What follows a line has no say in its depth. -/
theorem indentFor_scan (table : Table) (above : List Text) (line : Text) (below : List Text) :
    indentFor (scan table (above ++ line :: below)) above.length = depthBelow table above line := by
  obtain ⟨more, hmore⟩ := scan_prefix table (above ++ [line]) below
  rw [List.append_assoc, List.singleton_append, scan_append_singleton, advance] at hmore
  have hlength := scan_length table above
  simp [indentFor, ← hmore, ← hlength, depthBelow]

end Indent

namespace Buffer

open Indent

variable {table : Table} {unit : Text} {ls : List Text} {line t : Text} {b : Buffer}

def Indented (table : Table) (unit : Text) (ls : List Text) : Prop :=
  ∀ above line below, ls = above ++ line :: below →
    Text.leadingSpace line = indentation unit (depthBelow table above line)

theorem indented_nil : Indented table unit [] := by
  intro above line below h
  cases above <;> cases h

theorem indented_concat : Indented table unit (ls ++ [line]) ↔
    Indented table unit ls ∧
      Text.leadingSpace line = indentation unit (depthBelow table ls line) := by
  constructor
  · intro h
    refine ⟨fun above l below hls => ?_, h ls line [] rfl⟩
    exact h above l (below ++ [line]) (by rw [hls]; simp)
  · rintro ⟨hls, hline⟩ above l below hconcat
    rcases List.eq_nil_or_concat below with rfl | ⟨below, last, rfl⟩
    · obtain ⟨rfl, hlast⟩ := List.append_inj' hconcat rfl
      cases hlast
      exact hline
    · rw [List.concat_eq_append, ← List.cons_append, ← List.append_assoc] at hconcat
      exact hls above l below (List.append_inj' hconcat rfl).1

theorem reindentedLines_getElem? (table : Table) (unit t : Text) (i : Nat) :
    (reindentedLines table unit t)[i]? = (Text.lines t)[i]?.map fun line =>
      indentation unit (indentFor (scan table (Text.lines t)) i) ++ Text.trimStart line := by
  simp only [reindentedLines, List.getElem?_map, List.getElem?_zipIdx, Option.map_map, Nat.zero_add,
    Function.comp_def]

/-- Indented lines are left as they are. -/
theorem reindentedLines_of_indented (h : Indented table unit (Text.lines t)) :
    reindentedLines table unit t = Text.lines t := by
  apply List.ext_getElem?
  intro i
  rw [reindentedLines_getElem?]
  cases hline : (Text.lines t)[i]? with
  | none => rfl
  | some line =>
    obtain ⟨hlt, hget⟩ := List.getElem?_eq_some_iff.mp hline
    have hsplit : Text.lines t =
        (Text.lines t).take i ++ line :: (Text.lines t).drop (i + 1) := by
      rw [← hget, List.getElem_cons_drop, List.take_append_drop]
    have hdepth := indentFor_scan table ((Text.lines t).take i) line ((Text.lines t).drop (i + 1))
    rw [← hsplit, List.length_take, Nat.min_eq_left (Nat.le_of_lt hlt)] at hdepth
    rw [Option.map_some, hdepth, ← h _ _ _ hsplit, Text.leadingSpace_append_trimStart]

theorem reindentAll_of_indented (h : Indented table unit (Text.lines b.text))
    (ctx : Display.Context) : (b.reindentAll table unit ctx).text = b.text := by
  rw [reindentAll_text, reindentedLines_of_indented h, Text.joinLines_lines]

theorem isBlank_indentation (hunit : Text.isBlank unit = true) (depth : Nat) :
    Text.isBlank (indentation unit depth) = true :=
  Text.isBlank_iff.mpr fun c hc => Text.isBlank_iff.mp hunit c (indentation_subset unit depth hc)

def linesAbove (b : Buffer) : List Text := (Text.lines b.above).dropLast

def linesBelow (b : Buffer) : List Text := (Text.lines b.below).tail

theorem lines_closed_append {above : Text} (habove : Closed above) (ht : '\n' ∉ t) :
    Text.lines (above ++ t) = (Text.lines above).dropLast ++ [t] := by
  rcases habove with rfl | habove
  · exact Text.lines_of_not_mem ht
  · obtain ⟨rest, rfl⟩ := List.getLast?_eq_some_iff.mp habove
    have hlines (u : Text) (hu : '\n' ∉ u) :
        Text.lines (rest ++ ['\n'] ++ u) = Text.lines rest ++ [u] := by
      rw [List.append_assoc, List.singleton_append, Text.lines_append_lineFeed,
        Text.lines_of_not_mem hu]
    have hnone := hlines [] (by simp)
    rw [List.append_nil] at hnone
    rw [hnone, List.dropLast_concat, hlines t ht]

theorem lines_above_append (b : Buffer) (ht : '\n' ∉ t) :
    Text.lines (b.above ++ t) = b.linesAbove ++ [t] :=
  lines_closed_append b.closed_above ht

/-- Another line in the place of the cursor's line. -/
theorem lines_replaced (b : Buffer) (ht : '\n' ∉ t) :
    Text.lines (b.above ++ t ++ b.below) = b.linesAbove ++ t :: b.linesBelow := by
  rcases b.opened_below with hnil | hfeed
  · rw [linesBelow, hnil, List.append_nil, lines_above_append b ht]
    rfl
  · obtain ⟨rest, hrest⟩ := List.head?_eq_some_iff.mp hfeed
    have hbelow : b.linesBelow = Text.lines rest := by
      rw [linesBelow, hrest]
      rfl
    rw [hbelow, hrest, Text.lines_append_lineFeed, lines_above_append b ht, List.append_assoc,
      List.singleton_append]

theorem lines_text (b : Buffer) :
    Text.lines b.text = b.linesAbove ++ b.currentLine :: b.linesBelow := by
  rw [← lines_replaced b (lineFeed_not_mem_currentLine b), text_eq_lines]

theorem lines_before (b : Buffer) : Text.lines b.before = b.linesAbove ++ [b.lineBefore] := by
  rw [← lines_above_append b (lineFeed_not_mem_lineBefore b), above_append_lineBefore]

theorem linesAbove_of_lines (h : Text.lines b.before = ls ++ [line]) :
    b.linesAbove = ls ∧ b.lineBefore = line := by
  rw [lines_before] at h
  obtain ⟨hls, hline⟩ := List.append_inj' h rfl
  exact ⟨hls, List.singleton_inj.mp hline⟩

theorem lineIndex_eq (b : Buffer) : b.lineIndex = b.linesAbove.length := by
  have hlength := Text.split_length '\n' b.before
  have hlines := lines_before b
  rw [Text.lines] at hlines
  rw [hlines, List.length_append, List.length_singleton] at hlength
  rw [lineIndex]
  omega

theorem lines_set (b : Buffer) (ht : '\n' ∉ t) :
    Text.lines (b.above ++ t ++ b.below) = (Text.lines b.text).set b.lineIndex t := by
  rw [lines_replaced b ht, lines_text, lineIndex_eq, List.set_append_right _ _ (Nat.le_refl _),
    Nat.sub_self, List.set_cons_zero]

theorem lines_getElem?_lineIndex (b : Buffer) : (Text.lines b.text)[b.lineIndex]? = some b.currentLine := by
  rw [lines_text, lineIndex_eq, List.getElem?_append_right (Nat.le_refl _), Nat.sub_self]
  rfl

theorem lines_take (b : Buffer) :
    (Text.lines b.text).take (b.lineIndex + 1) = b.linesAbove ++ [b.currentLine] := by
  have hsplit : Text.lines b.text = (b.linesAbove ++ [b.currentLine]) ++ b.linesBelow := by
    rw [lines_text, List.append_assoc, List.singleton_append]
  rw [hsplit, List.take_left']
  rw [lineIndex_eq, List.length_append, List.length_singleton]

/-- The lines below the cursor's line have no say in its indentation. -/
theorem lineIndentation_eq (b : Buffer) (table : Table) (unit : Text) : b.lineIndentation table unit =
    indentation unit (depthBelow table b.linesAbove b.currentLine) := by
  rw [lineIndentation, lines_take, lineIndex_eq, indentFor_scan]

theorem indentFor_lines (b : Buffer) (table : Table) :
    indentFor (scan table (Text.lines b.text)) b.lineIndex =
      depthBelow table b.linesAbove b.currentLine := by
  rw [lines_text, lineIndex_eq, indentFor_scan]

theorem reindentLine_text (b : Buffer) (table : Table) (unit : Text) (ctx : Display.Context) :
    (b.reindentLine table unit ctx).1.text =
      b.above ++ (b.lineIndentation table unit ++ Text.trimStart b.currentLine) ++ b.below := by
  unfold reindentLine
  dsimp only
  split
  · rename_i hsame
    rw [← hsame, Text.leadingSpace_append_trimStart, ← text_eq_lines]
  · refine (b.withIndentation_text _).trans ?_
    simp only [List.append_assoc]

section

variable (hafter : b.after = [])
include hafter

theorem text_of_after : b.text = b.before := by
  rw [text, hafter, List.append_nil]

theorem currentLine_of_after : b.currentLine = b.lineBefore := by
  rw [currentLine, lineAfter, hafter]
  exact List.append_nil _

theorem lineIndentation_of_after : b.lineIndentation table unit =
    indentation unit (depthBelow table b.linesAbove b.lineBefore) := by
  rw [lineIndentation_eq, currentLine_of_after hafter]

/-- At the end of the text, reindenting a line replaces its white space and leaves the cursor at the
end. -/
theorem reindentLine_of_after (table : Table) (unit : Text) (ctx : Display.Context) :
    (b.reindentLine table unit ctx).1.after = [] ∧
      (b.reindentLine table unit ctx).1.before =
        b.above ++ (b.lineIndentation table unit ++ Text.trimStart b.lineBefore) := by
  have hnone : b.lineAfter ++ b.below = [] := b.lineAfter_append_below.trans hafter
  obtain ⟨hlineAfter, hbelow⟩ := List.append_eq_nil_iff.mp hnone
  unfold reindentLine
  dsimp only
  split
  · rename_i hspace
    rw [currentLine_of_after hafter] at hspace
    refine ⟨hafter, ?_⟩
    rw [← hspace, Text.leadingSpace_append_trimStart, above_append_lineBefore]
  · refine ⟨?_, List.append_assoc _ _ _⟩
    simp only [withIndentation, hlineAfter, hbelow, List.append_nil]
    split <;> rfl

/-- A line that is reindented below indented lines is indented itself. -/
theorem indented_reindentLine (hadvances : table.Advances) (hunit : Text.isBlank unit = true)
    (hfeed : '\n' ∉ unit) (habove : Indented table unit b.linesAbove) (ctx : Display.Context) :
    Indented table unit (Text.lines (b.reindentLine table unit ctx).1.text) := by
  obtain ⟨hend, hbefore⟩ := reindentLine_of_after hafter table unit ctx
  have hblank := isBlank_indentation hunit (depthBelow table b.linesAbove b.lineBefore)
  have hnone : '\n' ∉ b.lineIndentation table unit ++ Text.trimStart b.lineBefore :=
    not_mem_indented (not_mem_indentation hfeed _) b.lineFeed_not_mem_lineBefore
  rw [text_of_after hend, hbefore, lines_above_append b hnone, indented_concat]
  refine ⟨habove, ?_⟩
  rw [lineIndentation_of_after hafter, Text.leadingSpace_indented hblank,
    depthBelow_congr (hadvances.finishes _) (Text.trim_indented hblank _)]

end

end Buffer
end Promptline
