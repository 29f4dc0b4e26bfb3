import Promptline.Buffer.Reindent
import Promptline.Proofs.Buffer.Lines
import Promptline.Proofs.Text.Blank
import Promptline.Proofs.Text.Lines

set_option autoImplicit false

namespace Promptline.Buffer

open Display Indent

variable {b b' : Buffer} {t unit : Text} {table : Table} {ctx : Context}

theorem insert_subset (b : Buffer) (t : Text) : (b.insert t).text ⊆ b.text ++ t := by
  intro c hc
  simp only [insert, text, List.mem_append] at hc ⊢
  rcases hc with (hc | hc) | hc
  · exact Or.inl (Or.inl hc)
  · exact Or.inr hc
  · exact Or.inl (Or.inr hc)

theorem deleteBefore?_subset (h : b.deleteBefore? = some b') : b'.text ⊆ b.text := by
  obtain ⟨⟨kept, cluster⟩, hs, rfl⟩ := Option.map_eq_some_iff.mp h
  simp only [text]
  rw [← splitLastCluster?_append hs, List.append_assoc]
  exact ((List.sublist_append_right cluster b.after).append_left kept).subset

theorem deleteAfter?_subset (h : b.deleteAfter? = some b') : b'.text ⊆ b.text := by
  obtain ⟨⟨cluster, kept⟩, hs, rfl⟩ := Option.map_eq_some_iff.mp h
  simp only [text]
  rw [← splitFirstCluster?_append hs]
  exact ((List.sublist_append_right cluster kept).append_left b.before).subset

theorem replaceLine_text (b : Buffer) (line : Text) :
    (b.replaceLine line).text = b.above ++ line ++ b.below := by
  have hstart := Text.takeBytes_isPrefix (Text.bytes line - Text.bytes b.lineAfter) line
  have hline := List.prefix_iff_eq_append.mp hstart
  simp only [replaceLine, text]
  rw [List.append_assoc, ← List.append_assoc (Text.takeBytes _ line), hline, List.append_assoc]

theorem replaceLine_subset (b : Buffer) (line : Text) :
    (b.replaceLine line).text ⊆ b.text ++ line := by
  intro c hc
  rw [replaceLine_text] at hc
  rw [text_eq_lines]
  simp only [List.mem_append] at hc ⊢
  rcases hc with (hc | hc) | hc
  · exact Or.inl (Or.inl (Or.inl hc))
  · exact Or.inr hc
  · exact Or.inl (Or.inr hc)

theorem trimStart_subset (t : Text) : Text.trimStart t ⊆ t :=
  (List.dropWhile_suffix _).subset

theorem indentation_subset (unit : Text) (depth : Nat) : indentation unit depth ⊆ unit := by
  intro c hc
  obtain ⟨l, hl, hc⟩ := List.mem_flatten.mp hc
  rwa [List.eq_of_mem_replicate hl] at hc

theorem not_mem_indentation (hfeed : '\n' ∉ unit) (depth : Nat) : '\n' ∉ indentation unit depth :=
  fun h => hfeed (indentation_subset unit depth h)

/-- A line with another indentation is still one line. -/
theorem not_mem_indented {indent line : Text} (hindent : '\n' ∉ indent) (hline : '\n' ∉ line) :
    '\n' ∉ indent ++ Text.trimStart line := by
  rw [List.mem_append]
  exact fun h => h.elim hindent fun h => hline (trimStart_subset _ h)

def contentAfter (b : Buffer) : Text :=
  if Text.isBlank b.lineBefore then Text.trimStart b.lineAfter else b.lineAfter

theorem trimStart_currentLine (b : Buffer) :
    Text.trimStart b.currentLine = Text.trimStart b.lineBefore ++ b.contentAfter := by
  rw [currentLine, contentAfter]
  cases hblank : Text.isBlank b.lineBefore with
  | true =>
    rw [Text.trimStart_eq_nil hblank, Text.trimStart_blank_append hblank]
    rfl
  | false => exact Text.trimStart_append hblank _

theorem leadingSpace_currentLine (hblank : Text.isBlank b.lineBefore = true) :
    Text.leadingSpace b.currentLine = b.lineBefore ++ Text.leadingSpace b.lineAfter :=
  List.takeWhile_append_of_pos (Text.isBlank_iff.mp hblank)

theorem bytes_trimStart_lineBefore (b : Buffer) : Text.bytes (Text.trimStart b.lineBefore) =
    Text.bytes b.lineBefore - Text.bytes (Text.leadingSpace b.currentLine) := by
  cases hblank : Text.isBlank b.lineBefore with
  | true =>
    rw [Text.trimStart_eq_nil hblank, leadingSpace_currentLine hblank, Text.bytes_append, Text.bytes]
    omega
  | false =>
    have hsplit := Text.bytes_append (Text.leadingSpace b.lineBefore) (Text.trimStart b.lineBefore)
    rw [Text.leadingSpace_append_trimStart] at hsplit
    rw [currentLine, Text.leadingSpace_append hblank]
    omega

theorem withIndentation_text (b : Buffer) (indent : Text) : (b.withIndentation indent).text =
    b.above ++ indent ++ (Text.trimStart b.currentLine ++ b.below) := by
  rw [trimStart_currentLine, List.append_assoc _ _ b.below, ← List.append_assoc]
  rfl

theorem withIndentation_subset (b : Buffer) (indent : Text) :
    (b.withIndentation indent).text ⊆ b.text ++ indent := by
  intro c hc
  rw [withIndentation_text] at hc
  rw [text_eq_lines]
  simp only [List.mem_append] at hc ⊢
  rcases hc with (hc | hc) | hc | hc
  · exact Or.inl (Or.inl (Or.inl hc))
  · exact Or.inr hc
  · exact Or.inl (Or.inl (Or.inr (trimStart_subset _ hc)))
  · exact Or.inl (Or.inr hc)

theorem reindentLine_subset (b : Buffer) (table : Table) (unit : Text) (ctx : Context) :
    (b.reindentLine table unit ctx).1.text ⊆ b.text ++ unit := by
  unfold reindentLine
  dsimp only
  split
  · exact List.subset_append_left _ _
  · have hindent : b.lineIndentation table unit ⊆ unit := indentation_subset unit _
    have hboth : b.text ++ b.lineIndentation table unit ⊆ b.text ++ unit :=
      List.append_subset.mpr ⟨List.subset_append_left _ _,
        List.Subset.trans hindent (List.subset_append_right _ _)⟩
    exact List.Subset.trans (b.withIndentation_subset _) hboth

/-- Reindenting all lines leaves nothing behind and adds nothing to the reindented lines. -/
theorem reindentAll_text (b : Buffer) (table : Table) (unit : Text) (ctx : Context) :
    (b.reindentAll table unit ctx).text = Text.joinLines (reindentedLines table unit b.text) := by
  have hsplit := Text.splitAfterLines_append b.lineIndex
    (Text.joinLines (reindentedLines table unit b.text))
  have hstart (n : Nat) (rest : Text) :
      Text.takeBytes n (rest.takeWhile (· != '\n')) <+: rest :=
    (Text.takeBytes_isPrefix n _).trans (List.takeWhile_prefix _)
  rw [← hsplit]
  change _ ++ _ ++ List.drop _ _ = _
  rw [List.append_assoc, List.prefix_iff_eq_append.mp (hstart _ _)]

theorem lineIndex_le_count (b : Buffer) (table : Table) (unit : Text) :
    b.lineIndex ≤ (Text.joinLines (reindentedLines table unit b.text)).count '\n' := by
  have hjoined := Text.le_count_joinLines (reindentedLines table unit b.text)
  have hlines := Text.split_length '\n' b.text
  have hbefore : b.lineIndex ≤ b.text.count '\n' := by
    rw [text, List.count_append]
    exact Nat.le_add_right _ _
  rw [reindentedLines, List.length_map, List.length_zipIdx, Text.lines, hlines] at hjoined
  rw [reindentedLines]
  exact Nat.le_trans hbefore (Nat.le_of_succ_le_succ hjoined)

theorem reindentAll_subset (b : Buffer) (table : Table) (unit : Text) (ctx : Context) :
    (b.reindentAll table unit ctx).text ⊆ '\n' :: (b.text ++ unit) := by
  rw [reindentAll_text]
  intro c hc
  rcases Text.mem_joinLines hc with rfl | ⟨line, hline, hc⟩
  · exact List.mem_cons_self
  · refine List.mem_cons_of_mem _ ?_
    obtain ⟨⟨l, index⟩, hl, rfl⟩ := List.mem_map.mp hline
    rcases List.mem_append.mp hc with hc | hc
    · exact List.mem_append_right _ (indentation_subset _ _ hc)
    · have hlines : l ∈ Text.lines b.text := List.fst_mem_of_mem_zipIdx hl
      exact List.mem_append_left _ (Text.split_mem hlines (trimStart_subset _ hc)).1

end Promptline.Buffer
