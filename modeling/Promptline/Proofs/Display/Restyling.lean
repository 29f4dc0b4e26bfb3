import Mathlib.Data.List.Forall2
import Promptline.Proofs.Display.Shown

set_option autoImplicit false

namespace Promptline.Display

variable {t t' u u' : Text} {ls : List Text} {p : Prompts} {style style' : Text → Text}

def SameShown (t t' : Text) : Prop :=
  ∃ shown, run .ground t = (.ground, shown) ∧ run .ground t' = (.ground, shown)

namespace SameShown

theorem of_printable (h : Printable t) : SameShown t t := ⟨t, h.run, h.run⟩

theorem append (h : SameShown t t') (h' : SameShown u u') : SameShown (t ++ u) (t' ++ u') := by
  obtain ⟨shown, ht, ht'⟩ := h
  obtain ⟨shown', hu, hu'⟩ := h'
  exact ⟨_, run_ground_append ht hu, run_ground_append ht' hu'⟩

theorem strip (h : SameShown t t') : strip t' = strip t := by
  obtain ⟨shown, ht, ht'⟩ := h
  rw [Display.strip, Display.strip, ht, ht']

theorem layout (h : SameShown t t') (width : Nat) : layout width t' = layout width t := by
  rw [Display.layout, Display.layout, h.strip]

end SameShown

structure SameLine (q q' : Text) : Prop where
  shown : SameShown q q'
  noLineFeed : '\n' ∉ q
  noLineFeed' : '\n' ∉ q'

inductive SameEntry : Text → Text → Prop
  | ended {q q' : Text} : SameLine q q' → SameEntry (q ++ ['\n']) (q' ++ ['\n'])
  | last {q q' : Text} : SameLine q q' → q ≠ [] → q' ≠ [] → SameEntry q q'

namespace SameEntry

theorem shown (h : SameEntry t t') : SameShown t t' := by
  cases h with
  | ended hq => exact hq.shown.append ⟨_, rfl, rfl⟩
  | last hq => exact hq.shown

theorem ne_nil (h : SameEntry t t') : t ≠ [] ∧ t' ≠ [] := by
  cases h with
  | ended => simp
  | last _ hq hq' => exact ⟨hq, hq'⟩

theorem dropLineFeed (h : SameEntry t t') :
    SameShown (Session.dropLineFeed t) (Session.dropLineFeed t') := by
  cases h with
  | ended hq =>
    rw [dropLineFeed_concat, dropLineFeed_concat]
    exact hq.shown
  | last hq =>
    rw [dropLineFeed_of_not_mem hq.noLineFeed, dropLineFeed_of_not_mem hq.noLineFeed']
    exact hq.shown

end SameEntry

/-- An empty last line has no entry, so it has to be empty in both styles. -/
theorem splitLines_same {qs qs' : List Text}
    (h : List.Forall₂ (fun q q' => SameLine q q' ∧ (q = [] ↔ q' = [])) qs qs') :
    List.Forall₂ SameEntry (Text.splitLines (Text.joinLines qs))
      (Text.splitLines (Text.joinLines qs')) := by
  induction h with
  | nil => exact .nil
  | @cons q q' rest rest' hq hrest ih =>
    obtain ⟨hline, hempty⟩ := hq
    cases hrest with
    | nil =>
      rw [Text.joinLines_singleton, Text.joinLines_singleton]
      by_cases hnil : q = []
      · rw [hnil, hempty.mp hnil]
        exact .nil
      · have hnil' : q' ≠ [] := fun h => hnil (hempty.mpr h)
        rw [Text.splitLines_of_not_mem hline.noLineFeed hnil,
          Text.splitLines_of_not_mem hline.noLineFeed' hnil']
        exact .cons (.last hline hnil hnil') .nil
    | cons =>
      rw [Text.joinLines_cons_cons, Text.joinLines_cons_cons,
        Text.splitLines_append_lineFeed hline.noLineFeed,
        Text.splitLines_append_lineFeed hline.noLineFeed']
      exact .cons (.ended hline) ih

theorem cutLines_same {es es' : List Text} (h : List.Forall₂ SameEntry es es')
    (width limit row : Nat) : List.Forall₂ SameEntry (cutLines width limit row es).1
      (cutLines width limit row es').1 := by
  induction h generalizing row with
  | nil => exact .nil
  | cons he _ ih =>
    have hrows : rowsOf width _ = rowsOf width _ := congrArg (max ·.rows 1) (he.shown.layout width)
    simp only [cutLines, hrows]
    split
    · exact .nil
    · exact .cons he (ih _)

theorem dropLineFeed_same {es es' : List Text} (h : List.Forall₂ SameEntry es es') :
    SameShown (Session.dropLineFeed es.flatten) (Session.dropLineFeed es'.flatten) := by
  induction h with
  | nil => exact ⟨[], rfl, rfl⟩
  | cons he hrest ih =>
    cases hrest with
    | nil => simpa using he.dropLineFeed
    | @cons next next' rest rest' hnext =>
      have hne : (next :: rest).flatten ≠ [] :=
        List.append_ne_nil_of_left_ne_nil hnext.ne_nil.1 _
      have hne' : (next' :: rest').flatten ≠ [] :=
        List.append_ne_nil_of_left_ne_nil hnext.ne_nil.2 _
      have hboth := he.shown.append ih
      rwa [← dropLineFeed_append _ hne, ← dropLineFeed_append _ hne'] at hboth

/-- A line that stands alone is never cut. -/
theorem dropLineFeed_linesBefore (h : '\n' ∉ t) (row width : Nat) :
    Session.dropLineFeed (linesBefore t (row + 1) width) = t := by
  have hnone : ∀ q ∈ [t], '\n' ∉ q := List.forall_mem_singleton.mpr h
  obtain ⟨m, -, hm, -⟩ := linesBefore_joinLines hnone (List.cons_ne_nil _ _) row width
  rwa [List.take_succ_cons, List.take_nil, Text.joinLines_singleton] at hm

theorem Faithful.ne_nil (h : Faithful style) (ht : Printable t) (hne : t ≠ []) : style t ≠ [] := by
  intro hnil
  have hrun := h.shown ht
  rw [hnil] at hrun
  exact hne (congrArg Prod.snd hrun).symm

theorem sameLine_styled (hstyle : Faithful style) (hstyle' : Faithful style') {prompt : Text}
    (hprompt : Printable prompt) (ht : Printable t) :
    SameLine (prompt ++ style t) (prompt ++ style' t) where
  shown := (SameShown.of_printable hprompt).append ⟨t, hstyle.shown ht, hstyle'.shown ht⟩
  noLineFeed hmem :=
    (List.mem_append.mp hmem).elim hprompt.not_mem (hstyle.noLineFeed ht)
  noLineFeed' hmem :=
    (List.mem_append.mp hmem).elim hprompt.not_mem (hstyle'.noLineFeed ht)

theorem styled_eq_nil_iff (hstyle : Faithful style) (hstyle' : Faithful style') {prompt : Text}
    (hempty : prompt ≠ [] ∨ (style [] = [] ↔ style' [] = [])) (ht : Printable t) :
    prompt ++ style t = [] ↔ prompt ++ style' t = [] := by
  rw [List.append_eq_nil_iff, List.append_eq_nil_iff]
  by_cases hnil : t = []
  · rw [hnil]
    tauto
  · simp [hstyle.ne_nil ht hnil, hstyle'.ne_nil ht hnil]

/-- Lines cut at a row, without the line feed at their end, show the same in both styles. -/
theorem linesBefore_same (hstyle : Faithful style) (hstyle' : Faithful style')
    (hfirst : Printable p.first) (hcontinuation : Printable p.continuation)
    (hempty : p.continuation ≠ [] ∨ (style [] = [] ↔ style' [] = []))
    (hls : ∀ l ∈ ls, Printable l) (row width : Nat) :
    SameShown (Session.dropLineFeed (linesBefore (p.showLines style ls) (row + 1) width))
      (Session.dropLineFeed (linesBefore (p.showLines style' ls) (row + 1) width)) := by
  cases ls with
  | nil =>
    simp only [Prompts.showLines, dropLineFeed_linesBefore hfirst.not_mem]
    exact .of_printable hfirst
  | cons line rest =>
    have hline := sameLine_styled hstyle hstyle' hfirst (hls line List.mem_cons_self)
    simp only [showLines_eq, pieces]
    cases rest with
    | nil =>
      simp only [List.map_nil, Text.joinLines_singleton, dropLineFeed_linesBefore hline.noLineFeed,
        dropLineFeed_linesBefore hline.noLineFeed']
      exact hline.shown
    | cons next rest =>
      have hrest : List.Forall₂ (fun q q' => SameLine q q' ∧ (q = [] ↔ q' = []))
          ((next :: rest).map fun l => p.continuation ++ style l)
          ((next :: rest).map fun l => p.continuation ++ style' l) := by
        rw [List.forall₂_map_left_iff, List.forall₂_map_right_iff, List.forall₂_same]
        intro l hl
        have hl := hls l (List.mem_cons_of_mem _ hl)
        exact ⟨sameLine_styled hstyle hstyle' hcontinuation hl,
          styled_eq_nil_iff hstyle hstyle' hempty hl⟩
      refine dropLineFeed_same (cutLines_same ?_ width (row + 1) 0)
      simp only [List.map_cons] at hrest ⊢
      rw [Text.joinLines_cons_cons, Text.joinLines_cons_cons,
        Text.splitLines_append_lineFeed hline.noLineFeed,
        Text.splitLines_append_lineFeed hline.noLineFeed']
      exact .cons (.ended hline) (splitLines_same hrest)

/-- A line feed inside of an escape sequence shows nothing, but makes two lines of one. -/
example : let style := Session.Presenter.enclosed "\x1b]8;;\n\x07".toList "\x1b]8;;\x1b\\".toList
    run .ground (style ['a']) = (.ground, ['a']) ∧
      strip (linesBefore (style ['a'] ++ '\n' :: style ['b']) 2 80) ≠
        strip (linesBefore (['a'] ++ '\n' :: ['b']) 2 80) := by
  decide +kernel

end Promptline.Display
