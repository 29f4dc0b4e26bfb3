import Promptline.Text.Lines

set_option autoImplicit false

namespace Promptline.Text

/-- Copies a text with the occurrences of a pattern replaced, the leftmost ones first and none that
overlaps another; the first `passed` characters belong to an occurrence already replaced. -/
def replaceFrom (pattern replacement : Text) : Nat → Text → Text
  | _, [] => []
  | passed + 1, _ :: t => replaceFrom pattern replacement passed t
  | 0, c :: t =>
    if pattern.isPrefixOf (c :: t) then
      replacement ++ replaceFrom pattern replacement (pattern.length - 1) t
    else c :: replaceFrom pattern replacement 0 t

def replaceAll (pattern replacement t : Text) : Text := replaceFrom pattern replacement 0 t

variable {c : Char} {t : Text}

theorem replaceAll_pair (t : Text) : replaceAll ['\r', '\n'] ['\n'] ('\r' :: '\n' :: t) =
    '\n' :: replaceAll ['\r', '\n'] ['\n'] t := rfl

theorem replaceAll_of_not_pair (h : ∀ u, c :: t ≠ '\r' :: '\n' :: u) :
    replaceAll ['\r', '\n'] ['\n'] (c :: t) = c :: replaceAll ['\r', '\n'] ['\n'] t := by
  have hnot : ¬ List.isPrefixOf ['\r', '\n'] (c :: t) = true := by
    intro hprefix
    obtain ⟨u, hu⟩ := List.isPrefixOf_iff_prefix.mp hprefix
    exact h u hu.symm
  exact if_neg hnot

/-- A pattern of one character is replaced character by character. -/
theorem replaceAll_singleton (d e : Char) (t : Text) :
    replaceAll [d] [e] t = t.map fun c => if c = d then e else c := by
  induction t with
  | nil => rfl
  | cons c t ih =>
    have hprefix : List.isPrefixOf [d] (c :: t) = (d == c) := by simp [List.isPrefixOf]
    rw [List.map_cons, ← ih]
    by_cases hc : c = d
    · simp [replaceAll, replaceFrom, hc]
    · have hne : (d == c) = false := beq_eq_false_iff_ne.mpr (Ne.symm hc)
      simp [replaceAll, replaceFrom, hprefix, hne, hc]

theorem replaceAll_eq_normalizeNewlines (t : Text) :
    replaceAll ['\r'] ['\n'] (replaceAll ['\r', '\n'] ['\n'] t) = normalizeNewlines t := by
  rw [replaceAll_singleton]
  fun_induction normalizeNewlines t with
  | case1 t ih => rw [replaceAll_pair, List.map_cons, ih, if_neg (by decide)]
  | case2 c t hpair ih =>
    have hnot : ∀ u, c :: t ≠ '\r' :: '\n' :: u := by
      intro u hu
      obtain ⟨hc, ht⟩ := List.cons.inj hu
      exact hpair u hc ht
    rw [replaceAll_of_not_pair hnot, List.map_cons, ih]
  | case3 => rfl

theorem normalizeNewlines_ne {t : Text} (h : c ∈ normalizeNewlines t) : c ≠ '\r' := by
  rw [← replaceAll_eq_normalizeNewlines, replaceAll_singleton] at h
  obtain ⟨d, -, rfl⟩ := List.mem_map.mp h
  split
  · decide
  · assumption

/-- Of three line breaks in a row, the pair is one. -/
example : normalizeNewlines "a\r\r\nb\n\r".toList = "a\n\nb\n\n".toList := by decide

end Promptline.Text
