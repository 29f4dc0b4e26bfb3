import Mathlib.Data.List.DropRight
import Promptline.Text.Basic

set_option autoImplicit false

namespace Promptline.Text

variable {t u w : Text}

theorem isBlank_iff : isBlank t = true ↔ ∀ c ∈ t, isSpace c = true := List.all_eq_true

theorem isBlank_append_iff : isBlank (t ++ u) = true ↔ isBlank t = true ∧ isBlank u = true := by
  rw [isBlank, List.all_append, Bool.and_eq_true]
  rfl

theorem trimStart_eq_nil (h : isBlank t = true) : trimStart t = [] :=
  List.dropWhile_eq_nil_iff.mpr (isBlank_iff.mp h)

theorem trimStart_ne_nil (h : isBlank t = false) : trimStart t ≠ [] := by
  intro hnil
  have hblank := isBlank_iff.mpr (List.dropWhile_eq_nil_iff.mp hnil)
  rw [h] at hblank
  cases hblank

theorem trimStart_blank_append (hw : isBlank w = true) (t : Text) :
    trimStart (w ++ t) = trimStart t :=
  List.dropWhile_append_of_pos (isBlank_iff.mp hw)

theorem trimStart_append (h : isBlank t = false) (u : Text) :
    trimStart (t ++ u) = trimStart t ++ u := by
  rw [trimStart, List.dropWhile_append, if_neg]
  · rfl
  · rw [List.isEmpty_iff]
    exact trimStart_ne_nil h

theorem trimStart_trimStart (t : Text) : trimStart (trimStart t) = trimStart t :=
  List.dropWhile_idempotent isSpace t

theorem trimEnd_append_blank (hw : isBlank w = true) (t : Text) : trimEnd (t ++ w) = trimEnd t := by
  rw [trimEnd, List.reverse_append, List.dropWhile_append_of_pos]
  · rfl
  · intro c hc
    exact isBlank_iff.mp hw c (List.mem_reverse.mp hc)

theorem exists_trailing (t : Text) : ∃ w, isBlank w = true ∧ t = trimEnd t ++ w := by
  refine ⟨(t.reverse.takeWhile isSpace).reverse, isBlank_iff.mpr fun c hc => ?_, ?_⟩
  · exact List.mem_takeWhile_imp (List.mem_reverse.mp hc)
  · rw [trimEnd, ← List.reverse_append, List.takeWhile_append_dropWhile, List.reverse_reverse]

theorem trimEnd_append (h : isBlank u = false) (t : Text) : trimEnd (t ++ u) = t ++ trimEnd u := by
  have hreverse : isBlank u.reverse = false := by rwa [isBlank, List.all_reverse]
  have htrimmed := trimStart_append hreverse t.reverse
  rw [← List.reverse_append] at htrimmed
  rw [trimEnd, ← trimStart, htrimmed, List.reverse_append, List.reverse_reverse]
  rfl

theorem trimEnd_cons {c : Char} (hc : isSpace c = false) (t : Text) : trimEnd (c :: t) = c :: trimEnd t := by
  cases ht : isBlank t with
  | false => exact trimEnd_append ht [c]
  | true =>
    have hnone : trimEnd t = [] := trimEnd_append_blank ht []
    rw [hnone]
    refine (trimEnd_append_blank ht [c]).trans ?_
    simp [trimEnd, hc]

/-- What is left and right of a character that stays. -/
theorem trim_append_cons {c : Char} (hc : isSpace c = false) (t u : Text) :
    trim (t ++ c :: u) = trimStart t ++ c :: trimEnd u := by
  have hvisible : isBlank (c :: u) = false := by simp [isBlank, hc]
  have hstart : trimStart (c :: u) = c :: u := List.dropWhile_cons_of_neg (by simp [hc])
  cases ht : isBlank t with
  | false => rw [trim, trimStart_append ht, trimEnd_append hvisible, trimEnd_cons hc]
  | true => rw [trim, trimStart_blank_append ht, hstart, trimStart_eq_nil ht, trimEnd_cons hc]; rfl

theorem leadingSpace_append (h : isBlank t = false) (u : Text) :
    leadingSpace (t ++ u) = leadingSpace t := by
  have hboth := leadingSpace_append_trimStart (t ++ u)
  rw [trimStart_append h, ← List.append_assoc] at hboth
  exact List.append_cancel_right
    ((List.append_cancel_right hboth).trans (leadingSpace_append_trimStart t).symm)

theorem trim_indented (hw : isBlank w = true) (t : Text) : trim (w ++ trimStart t) = trim t := by
  rw [trim, trimStart_blank_append hw, trimStart_trimStart]
  rfl

theorem trim_append_blank (hw : isBlank w = true) (t : Text) : trim (t ++ w) = trim t := by
  cases ht : isBlank t with
  | true =>
    have hboth := isBlank_append_iff.mpr ⟨ht, hw⟩
    rw [trim, trim, trimStart_eq_nil ht, trimStart_eq_nil hboth]
  | false => rw [trim, trimStart_append ht, trimEnd_append_blank hw, trim]

theorem leadingSpace_indented (hw : isBlank w = true) (t : Text) :
    leadingSpace (w ++ trimStart t) = w := by
  have hnone : leadingSpace (trimStart t) = [] := by
    have hsplit := leadingSpace_append_trimStart (trimStart t)
    rw [trimStart_trimStart] at hsplit
    exact List.append_left_eq_self.mp hsplit
  rw [leadingSpace, List.takeWhile_append_of_pos (isBlank_iff.mp hw)]
  exact (congrArg (w ++ ·) hnone).trans (List.append_nil w)

end Promptline.Text
