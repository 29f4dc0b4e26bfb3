import Promptline.Text.Lines

set_option autoImplicit false

namespace Promptline.Text

variable {separator c : Char} {t l q : Text} {qs : List Text}

theorem split_ne_nil (separator : Char) (t : Text) : split separator t ≠ [] := by
  intro hnil
  have hlength := split_length separator t
  rw [hnil] at hlength
  cases hlength

theorem split_mem (h : l ∈ split separator t) (hc : c ∈ l) : c ∈ t ∧ c ≠ separator := by
  induction t generalizing l with
  | nil =>
    rw [split, List.mem_singleton] at h
    rw [h] at hc
    cases hc
  | cons d t ih =>
    rw [split] at h
    split at h
    · rcases List.mem_cons.mp h with rfl | h
      · cases hc
      · exact (ih h hc).imp_left (List.mem_cons_of_mem d)
    · rename_i hd
      split at h
      · rename_i hnil
        exact absurd hnil (split_ne_nil separator t)
      · rename_i line rest hcons
        rcases List.mem_cons.mp h with rfl | h
        · rcases List.mem_cons.mp hc with rfl | hc
          · exact ⟨List.mem_cons_self, hd⟩
          · have hline : line ∈ split separator t := by
              rw [hcons]
              exact List.mem_cons_self
            exact (ih hline hc).imp_left (List.mem_cons_of_mem d)
        · have hrest : l ∈ split separator t := by
            rw [hcons]
            exact List.mem_cons_of_mem _ h
          exact (ih hrest hc).imp_left (List.mem_cons_of_mem d)

theorem lines_ne_nil (t : Text) : lines t ≠ [] := split_ne_nil '\n' t

theorem intercalate_split (separator : Char) (t : Text) :
    [separator].intercalate (split separator t) = t := by
  have hcons (line : Text) {rest : List Text} (h : rest ≠ []) :
      [separator].intercalate (line :: rest) =
        line ++ separator :: [separator].intercalate rest := by
    obtain ⟨next, rest, rfl⟩ := List.exists_cons_of_ne_nil h
    simp
  induction t with
  | nil => rfl
  | cons c t ih =>
    rw [split]
    split
    · rename_i hc
      rw [hcons [] (split_ne_nil separator t), ih, hc]
      rfl
    · split
      · rename_i hnil
        exact absurd hnil (split_ne_nil separator t)
      · rename_i line rest hsplit
        rw [hsplit] at ih
        cases rest with
        | nil => simpa using ih
        | cons next rest =>
          rw [hcons _ (List.cons_ne_nil _ _)] at ih ⊢
          rw [List.cons_append, ih]

theorem joinLines_lines (t : Text) : joinLines (lines t) = t := intercalate_split '\n' t

theorem lines_of_not_mem (h : '\n' ∉ t) : lines t = [t] := by
  induction t with
  | nil => rfl
  | cons c t ih =>
    have hc : c ≠ '\n' := fun hc => h (by simp [hc])
    have hrest := ih fun hmem => h (List.mem_cons_of_mem c hmem)
    rw [lines] at hrest ⊢
    rw [split, if_neg hc, hrest]

theorem lines_append_lineFeed (s t : Text) : lines (s ++ '\n' :: t) = lines s ++ lines t := by
  induction s with
  | nil => simp [lines, split]
  | cons c s ih =>
    simp only [lines, List.cons_append, split] at ih ⊢
    rw [ih]
    split
    · rfl
    · cases hsplit : split '\n' s with
      | nil => exact absurd hsplit (lines_ne_nil s)
      | cons line rest => rfl

/-- A text is split like its beginning, up to the line in which the beginning ends. -/
theorem lines_append (s t : Text) : ∃ above line rest next, lines s = above ++ [line] ∧
    lines (s ++ t) = above ++ (line ++ rest) :: next ∧ above.length = s.count '\n' := by
  induction s with
  | nil =>
    obtain ⟨line, rest, hlines⟩ := List.exists_cons_of_ne_nil (lines_ne_nil t)
    exact ⟨[], [], line, rest, rfl, hlines, rfl⟩
  | cons c s ih =>
    obtain ⟨above, line, rest, next, hs, ht, hcount⟩ := ih
    simp only [lines] at hs ht ⊢
    rw [List.cons_append, split, split]
    split
    · rename_i hc
      refine ⟨[] :: above, line, rest, next, by rw [hs]; rfl, by rw [ht]; rfl, ?_⟩
      rw [hc, List.count_cons_self, ← hcount]
      rfl
    · rename_i hc
      rw [hs, ht, List.count_cons_of_ne hc]
      cases above with
      | nil => exact ⟨[], c :: line, rest, next, rfl, rfl, hcount⟩
      | cons first above => exact ⟨(c :: first) :: above, line, rest, next, rfl, rfl, hcount⟩

theorem joinLines_cons (q : Text) (qs : List Text) :
    joinLines (q :: qs) = q ++ qs.flatMap fun l => '\n' :: l := by
  induction qs generalizing q with
  | nil => simp [joinLines]
  | cons r qs ih =>
    have hr := ih r
    simp only [joinLines, List.intercalate_cons_cons, List.flatMap_cons] at hr ⊢
    rw [hr]
    simp

theorem joinLines_singleton (q : Text) : joinLines [q] = q := by simp [joinLines]

theorem joinLines_cons_cons (q r : Text) (qs : List Text) :
    joinLines (q :: r :: qs) = q ++ '\n' :: joinLines (r :: qs) := by
  rw [joinLines_cons, joinLines_cons]
  rfl

theorem joinLines_append (ls : List Text) (h : qs ≠ []) :
    joinLines (ls ++ qs) = (ls.flatMap fun l => l ++ ['\n']) ++ joinLines qs := by
  induction ls with
  | nil => rfl
  | cons l ls ih =>
    obtain ⟨r, rest, hrest⟩ := List.exists_cons_of_ne_nil (List.append_ne_nil_of_right_ne_nil ls h)
    rw [List.cons_append, hrest, joinLines_cons_cons, ← hrest, ih, List.flatMap_cons]
    simp

/-- Joined lines have a line feed between any two. -/
theorem le_count_joinLines (ls : List Text) : ls.length ≤ (joinLines ls).count '\n' + 1 := by
  cases ls with
  | nil => exact Nat.zero_le _
  | cons l ls =>
    have hfeeds : ls.length ≤ (ls.flatMap fun l => '\n' :: l).count '\n' := by
      induction ls with
      | nil => exact Nat.zero_le _
      | cons l ls ih =>
        rw [List.flatMap_cons, List.count_append, List.count_cons_self, List.length_cons]
        omega
    rw [joinLines_cons, List.count_append, List.length_cons]
    omega

theorem lines_joinLines (h : ∀ q ∈ qs, '\n' ∉ q) (hne : qs ≠ []) : lines (joinLines qs) = qs := by
  induction qs with
  | nil => exact absurd rfl hne
  | cons q rest ih =>
    obtain ⟨hq, hrest⟩ := List.forall_mem_cons.mp h
    cases rest with
    | nil => rw [joinLines_singleton, lines_of_not_mem hq]
    | cons r rest =>
      rw [joinLines_cons_cons, lines_append_lineFeed, lines_of_not_mem hq,
        ih hrest (List.cons_ne_nil r rest)]
      rfl

theorem mem_joinLines (h : c ∈ joinLines qs) : c = '\n' ∨ ∃ q ∈ qs, c ∈ q := by
  cases qs with
  | nil => cases h
  | cons q qs =>
    rw [joinLines_cons] at h
    rcases List.mem_append.mp h with h | h
    · exact Or.inr ⟨q, List.mem_cons_self, h⟩
    · obtain ⟨r, hr, h⟩ := List.mem_flatMap.mp h
      rcases List.mem_cons.mp h with h | h
      · exact Or.inl h
      · exact Or.inr ⟨r, List.mem_cons_of_mem q hr, h⟩

theorem splitAfterLines_append (n : Nat) (t : Text) :
    (splitAfterLines n t).1 ++ (splitAfterLines n t).2 = t := by
  induction t generalizing n with
  | nil => cases n <;> rfl
  | cons c t ih =>
    cases n with
    | zero => rfl
    | succ n => exact congrArg (c :: ·) (ih _)

theorem splitLines_of_not_mem (h : '\n' ∉ q) (hq : q ≠ []) : splitLines q = [q] := by
  induction q with
  | nil => exact absurd rfl hq
  | cons c q ih =>
    have hc : c ≠ '\n' := fun hc => h (by simp [hc])
    have hrest : '\n' ∉ q := fun hmem => h (List.mem_cons_of_mem c hmem)
    rw [splitLines, if_neg hc]
    cases q with
    | nil => rfl
    | cons d q => rw [ih hrest (by simp)]

theorem splitLines_append_lineFeed (h : '\n' ∉ q) (t : Text) :
    splitLines (q ++ '\n' :: t) = (q ++ ['\n']) :: splitLines t := by
  induction q with
  | nil => simp [splitLines]
  | cons c q ih =>
    have hc : c ≠ '\n' := fun hc => h (by simp [hc])
    have hrest : '\n' ∉ q := fun hmem => h (List.mem_cons_of_mem c hmem)
    rw [List.cons_append, splitLines, if_neg hc, ih hrest]
    rfl

theorem mem_splitLines_ne_nil (h : l ∈ splitLines t) : l ≠ [] := by
  induction t generalizing l with
  | nil => cases h
  | cons c t ih =>
    rw [splitLines] at h
    split at h
    · rcases List.mem_cons.mp h with rfl | h
      · exact List.cons_ne_nil _ _
      · exact ih h
    · split at h
      · rw [List.mem_singleton.mp h]
        exact List.cons_ne_nil _ _
      · rename_i line rest hcons
        rcases List.mem_cons.mp h with rfl | h
        · exact List.cons_ne_nil _ _
        · exact ih (by rw [hcons]; exact List.mem_cons_of_mem _ h)

theorem joinLines_eq_nil (h : joinLines (q :: qs) = []) : q = [] ∧ qs = [] := by
  cases qs with
  | nil => exact ⟨by rwa [joinLines_singleton] at h, rfl⟩
  | cons r rest =>
    rw [joinLines_cons_cons] at h
    exact absurd h (by simp)

/-- Joined lines are split again, but for an empty last one. -/
theorem lt_length_splitLines (h : ∀ q ∈ qs, '\n' ∉ q) (k : Nat) :
    k < (splitLines (joinLines qs)).length ↔
      k < qs.length ∧ (k + 1 < qs.length ∨ qs.getD k [] ≠ []) := by
  induction qs generalizing k with
  | nil => simp [joinLines, splitLines]
  | cons q rest ih =>
    obtain ⟨hq, hrest⟩ := List.forall_mem_cons.mp h
    cases rest with
    | nil =>
      rw [joinLines_singleton]
      by_cases hempty : q = []
      · simp +contextual [hempty, splitLines]
      · rw [splitLines_of_not_mem hq hempty]
        simp +contextual [hempty]
    | cons r rest =>
      rw [joinLines_cons_cons, splitLines_append_lineFeed hq]
      cases k with
      | zero => simp
      | succ k =>
        have hk := ih hrest k
        simp only [List.length_cons, Nat.add_lt_add_iff_right, List.getD_cons_succ] at hk ⊢
        exact hk

/-- Lines that end in a line feed are cut off one by one. -/
theorem splitLines_ended_append (h : ∀ q ∈ qs, '\n' ∉ q) (t : Text) :
    splitLines ((qs.flatMap fun l => l ++ ['\n']) ++ t) = qs.map (fun l => l ++ ['\n']) ++ splitLines t := by
  induction qs with
  | nil => rfl
  | cons q qs ih =>
    obtain ⟨hq, hrest⟩ := List.forall_mem_cons.mp h
    rw [List.flatMap_cons, List.append_assoc, List.append_assoc, List.singleton_append,
      splitLines_append_lineFeed hq, ih hrest]
    rfl

section

variable {above : List Text} {last : Text}

theorem not_mem_of_lines (h : lines t = above ++ [last]) : (∀ q ∈ above, '\n' ∉ q) ∧ '\n' ∉ last := by
  have hnone (q : Text) (hq : q ∈ above ++ [last]) : '\n' ∉ q := fun hmem => (split_mem (h ▸ hq) hmem).2 rfl
  exact ⟨fun q hq => hnone q (List.mem_append_left _ hq),
    hnone last (List.mem_append_right _ (List.mem_singleton_self last))⟩

theorem text_of_lines (h : lines t = above ++ [last]) : (above.flatMap fun l => l ++ ['\n']) ++ last = t := by
  rw [← joinLines_lines t, h, joinLines_append above (List.cons_ne_nil last []), joinLines_singleton]

/-- Behind a line feed at the end there is one more line, with nothing on it. -/
theorem getLast?_lineFeed_iff (h : lines t = above ++ [last]) :
    t.getLast? = some '\n' ↔ above ≠ [] ∧ last = [] := by
  have hnone := (not_mem_of_lines h).2
  rw [← text_of_lines h]
  rcases List.eq_nil_or_concat last with rfl | ⟨l, c, rfl⟩
  · rcases List.eq_nil_or_concat above with rfl | ⟨upper, line, rfl⟩ <;> simp
  · have hc : c ≠ '\n' := fun hc => hnone (by simp [hc])
    simp [hc]

/-- Only the last line of a text is without a line feed. It has no entry if there is nothing on it. -/
theorem splitLines_of_lines (h : lines t = above ++ [last]) :
    splitLines t = above.map (fun l => l ++ ['\n']) ++ if last = [] then [] else [last] := by
  obtain ⟨habove, hlast⟩ := not_mem_of_lines h
  rw [← text_of_lines h, splitLines_ended_append habove]
  split
  · rename_i hempty
    rw [hempty]
    rfl
  · rename_i hne
    rw [splitLines_of_not_mem hlast hne]

end

/-- The lines of a text with the last one set apart. -/
theorem exists_last_line (t : Text) : ∃ above last, lines t = above ++ [last] ∧
    countLines t = above.length + 1 ∧
    splitLines t = above.map (fun l => l ++ ['\n']) ++ if last = [] then [] else [last] := by
  obtain ⟨above, last, hlines⟩ := (List.eq_nil_or_concat (lines t)).resolve_left (lines_ne_nil t)
  rw [List.concat_eq_append] at hlines
  refine ⟨above, last, hlines, ?_, splitLines_of_lines hlines⟩
  rw [countLines, ← split_length, ← lines, hlines, List.length_append, List.length_singleton]

theorem splitLines_length (t : Text) : (splitLines t).length =
    if (lines t).getLast? = some [] then countLines t - 1 else countLines t := by
  obtain ⟨above, last, hlines, hcount, hsplit⟩ := exists_last_line t
  rw [hsplit, hlines, hcount, List.getLast?_concat, List.length_append, List.length_map]
  by_cases hlast : last = [] <;> simp [hlast]

theorem splitLines_getElem? {i : Nat} (hi : i < (splitLines t).length) : (splitLines t)[i]? =
    (lines t)[i]?.map fun line => line ++ if i + 1 < countLines t then ['\n'] else [] := by
  obtain ⟨above, last, hlines, hcount, hsplit⟩ := exists_last_line t
  rw [hsplit] at hi ⊢
  rw [hlines, hcount]
  by_cases habove : i < above.length
  · rw [List.getElem?_append_left (by rwa [List.length_map]), List.getElem?_append_left habove,
      List.getElem?_map, if_pos (Nat.add_lt_add_right habove 1)]
  · have hlast : last ≠ [] := by
      rintro rfl
      simp [habove] at hi
    have hend : i = above.length := by
      simp [hlast] at hi
      omega
    have hlength : (above.map fun l => l ++ ['\n']).length = i := by rw [List.length_map, hend]
    rw [if_neg hlast, if_neg (by omega), ← hlength, List.getElem?_concat_length, hlength, hend,
      List.getElem?_concat_length, Option.map_some, List.append_nil]

theorem splitLines_take_ended {k : Nat} (hk : k < (splitLines t).length) :
    ∀ l ∈ (splitLines t).take k, ∃ q, l = q ++ ['\n'] := by
  obtain ⟨above, last, -, -, hsplit⟩ := exists_last_line t
  have hle : k ≤ (above.map fun l => l ++ ['\n']).length := by
    rw [hsplit, List.length_append] at hk
    split at hk
    · exact Nat.le_of_lt hk
    · exact Nat.le_of_lt_succ hk
  rw [hsplit, List.take_append_of_le_length hle]
  intro l hl
  obtain ⟨q, -, rfl⟩ := List.mem_map.mp (List.mem_of_mem_take hl)
  exact ⟨q, rfl⟩

end Promptline.Text
