import Promptline.Display.Rows
import Promptline.Proofs.Display.Pen
import Promptline.Proofs.Text.Lines
import Promptline.Proofs.Text.Offsets

/-!
A cut at a screen row. The rows of the lines are counted line by line, each stripped of its escape
sequences for itself. They add up to the rows of the whole text before a line as long as no escape
sequence goes on past the end of its line.
-/

set_option autoImplicit false

namespace Promptline.Display

variable {s t u : Text} {ls : List Text} {width limit row k : Nat}

def cutRow (width : Nat) : List Text → Nat → Nat
  | _, 0 => 0
  | [], _ + 1 => 0
  | line :: rest, k + 1 => rowsOf width line + cutRow width rest k

theorem cutRow_zero (width : Nat) (ls : List Text) : cutRow width ls 0 = 0 := by
  cases ls <;> rfl

theorem cutLines_eq (width limit row : Nat) (ls : List Text) : ∃ m ≤ ls.length,
    cutLines width limit row ls = (ls.take m, ls.drop m) ∧
      ∀ k < ls.length, k < m ↔ row + cutRow width ls k < limit := by
  induction ls generalizing row with
  | nil => exact ⟨0, Nat.le_refl _, rfl, fun k hk => absurd hk (Nat.not_lt_zero k)⟩
  | cons line rest ih =>
    by_cases hpast : limit ≤ row
    · refine ⟨0, Nat.zero_le _, by rw [cutLines, if_pos hpast]; rfl, fun k _ => ?_⟩
      exact ⟨fun hk => absurd hk (Nat.not_lt_zero k), fun hk => by omega⟩
    · obtain ⟨m, hm, hcut, hrows⟩ := ih (row + rowsOf width line)
      refine ⟨m + 1, Nat.succ_le_succ hm, by rw [cutLines, if_neg hpast, hcut]; rfl, fun k hk => ?_⟩
      cases k with
      | zero =>
        rw [cutRow_zero, Nat.add_zero]
        exact ⟨fun _ => Nat.lt_of_not_le hpast, fun _ => Nat.succ_pos m⟩
      | succ k =>
        rw [Nat.add_lt_add_iff_right, hrows k (Nat.lt_of_succ_lt_succ hk), cutRow, Nat.add_assoc]

/-- Above line number `k`, where every line shows a line feed at its end, the rows counted are those of
what the lines show. -/
theorem layoutShown_lines (h : ∀ l ∈ ls.take k, ∃ u, strip l = u ++ ['\n']) (width : Nat) :
    (layoutShown (max width 1) ((ls.take k).flatMap strip)).rows = cutRow width ls k := by
  induction ls generalizing k with
  | nil => cases k <;> exact congrArg Layout.rows (layoutShown_nil _)
  | cons l rest ih =>
    cases k with
    | zero => exact congrArg Layout.rows (layoutShown_nil _)
    | succ k =>
      rw [List.take_succ_cons, List.forall_mem_cons] at h
      obtain ⟨⟨u, hu⟩, hrest⟩ := h
      have hline : rowsOf width l = (layoutShown (max width 1) u).rows + 1 := by
        rw [rowsOf, layout, hu, layoutShown_lineFeed, layoutShown_nil]
        exact Nat.max_eq_left (Nat.le_add_left _ _)
      rw [List.take_succ_cons, List.flatMap_cons, hu, List.append_assoc, List.singleton_append,
        layoutShown_lineFeed, cutRow, ih hrest, hline]

theorem step_shown (m : Mode) (c : Char) :
    (step m c).2 = [] ∨ (step m c).2 = [c] ∨ ∃ stray, (step m c).2 = showStray stray := by
  generalize hstep : step m c = next
  unfold step at hstep
  dsimp only at hstep
  split at hstep
  · split_ifs at hstep <;> simp [← hstep]
  · split at hstep
    · simp [← hstep]
    · split at hstep
      · simp [← hstep]
      · exact .inr (.inr ⟨_, by rw [← hstep]⟩)
  · split_ifs at hstep <;> simp [← hstep]

theorem count_step_le (m : Mode) (c : Char) : (step m c).2.count '\n' ≤ [c].count '\n' := by
  rcases step_shown m c with h | h | ⟨stray, h⟩
  · rw [h]
    exact Nat.zero_le _
  · rw [h]
  · have hstray : '\n' ∉ showStray stray := by
      intro hmem
      obtain ⟨_, _, hc⟩ := List.mem_map.mp hmem
      exact absurd hc (by decide)
    rw [h, List.count_eq_zero_of_not_mem hstray]
    exact Nat.zero_le _

theorem count_run_le (m : Mode) (t : Text) : (run m t).2.count '\n' ≤ t.count '\n' := by
  induction t generalizing m with
  | nil => exact Nat.le_refl _
  | cons c t ih =>
    have hcons : ([c] ++ t).count '\n' = [c].count '\n' + t.count '\n' := List.count_append
    rw [List.singleton_append] at hcons
    simp only [run, List.count_append, hcons]
    exact Nat.add_le_add (count_step_le m c) (ih _)

/-- A text that loses no line feed ends with the line feed that it shows last. -/
theorem run_concat_lineFeed {m : Mode}
    (h : (run m (t ++ ['\n'])).2.count '\n' = (t ++ ['\n']).count '\n') :
    ∃ u, (run m (t ++ ['\n'])).2 = u ++ ['\n'] := by
  have hlast (m : Mode) : (run m ['\n']).2 = [] ∨ (run m ['\n']).2 = ['\n'] := by
    cases m <;> decide
  have hbefore := count_run_le m t
  rw [run_append] at h ⊢
  rcases hlast (run m t).1 with hlost | hshown
  · simp only [hlost, List.append_nil, List.count_append, List.count_singleton_self] at h
    omega
  · exact ⟨_, congrArg _ hshown⟩

/-- No part of a text that loses no line feed loses one. -/
theorem count_strip_of_append (h : (strip (s ++ t)).count '\n' = (s ++ t).count '\n') :
    (strip s).count '\n' = s.count '\n' := by
  have hs := count_run_le .ground s
  have ht := count_run_le (run .ground s).1 t
  rw [strip, run_append, List.count_append, List.count_append] at h
  rw [strip]
  omega

theorem count_flatMap_strip (ls : List Text) :
    (ls.flatMap strip).count '\n' ≤ ls.flatten.count '\n' ∧
      ((ls.flatMap strip).count '\n' = ls.flatten.count '\n' ↔
        ∀ l ∈ ls, (strip l).count '\n' = l.count '\n') := by
  induction ls with
  | nil => exact ⟨Nat.le_refl _, fun _ => List.forall_mem_nil _, fun _ => rfl⟩
  | cons l rest ih =>
    have hline : (strip l).count '\n' ≤ l.count '\n' := count_run_le _ _
    rw [List.flatMap_cons, List.flatten_cons, List.count_append, List.count_append,
      List.forall_mem_cons, ← ih.2]
    omega

/-- Two beginnings of a text with as many line feeds, one of them at the end. -/
theorem eq_of_concat_lineFeed (hs : s ++ ['\n'] <+: t) (hu : u ++ ['\n'] <+: t)
    (hcount : (s ++ ['\n']).count '\n' = (u ++ ['\n']).count '\n') :
    s ++ ['\n'] = u ++ ['\n'] := by
  have hsame {a b : Text} (h : a <+: b ++ ['\n']) (hc : a.count '\n' = (b ++ ['\n']).count '\n') :
      a = b ++ ['\n'] := by
    obtain ⟨rest, hrest⟩ := h
    rcases List.eq_nil_or_concat rest with rfl | ⟨init, c, rfl⟩
    · rwa [List.append_nil] at hrest
    · rw [List.concat_eq_append, ← List.append_assoc] at hrest
      obtain ⟨hinit, -⟩ := List.append_inj' hrest rfl
      rw [← hinit, List.count_append, List.count_append, List.count_singleton_self] at hc
      omega
  rcases List.prefix_or_prefix_of_prefix hs hu with h | h
  · exact hsame h hcount
  · exact (hsame h hcount.symm).symm

/-- Lines that show as many line feeds as they have show the same together as one by one, as far as
what follows does. -/
theorem strip_flatten {taken : List Text} (hended : ∀ l ∈ taken, ∃ q, l = q ++ ['\n'])
    (hcount : ∀ l ∈ taken, (strip l).count '\n' = l.count '\n')
    (hfeeds : (strip (taken.flatten ++ t)).count '\n' = (taken.flatten ++ t).count '\n')
    (hwhole : taken.flatMap strip <+: strip (taken.flatten ++ t)) :
    strip taken.flatten = taken.flatMap strip := by
  have htogether : strip taken.flatten <+: strip (taken.flatten ++ t) := by
    rw [strip, strip, run_append]
    exact List.prefix_append _ _
  have hsame := count_strip_of_append hfeeds
  have hsum := (count_flatMap_strip taken).2.mpr hcount
  -- Both are beginnings of what is shown, and both end with the line feed of the last line.
  rcases List.eq_nil_or_concat taken with rfl | ⟨init, l, hconcat⟩
  · rfl
  · rw [List.concat_eq_append] at hconcat
    subst hconcat
    have hl : l ∈ init ++ [l] := List.mem_append_right _ (List.mem_singleton_self l)
    obtain ⟨q, rfl⟩ := hended l hl
    obtain ⟨u, hu⟩ := run_concat_lineFeed (hcount _ hl)
    have hflat : (init ++ [q ++ ['\n']]).flatten = init.flatten ++ q ++ ['\n'] := by simp
    have hsingly : (init ++ [q ++ ['\n']]).flatMap strip = init.flatMap strip ++ u ++ ['\n'] := by
      rw [List.flatMap_append, List.flatMap_singleton, strip, hu, List.append_assoc]
    rw [← hsame] at hsum
    rw [hflat] at htogether hsame hwhole hsum ⊢
    rw [hsingly] at hwhole hsum ⊢
    obtain ⟨v, hv⟩ := run_concat_lineFeed hsame
    have hv : strip (init.flatten ++ q ++ ['\n']) = v ++ ['\n'] := hv
    rw [hv] at htogether hsum ⊢
    exact eq_of_concat_lineFeed htogether hwhole hsum.symm

/-- No escape sequence goes on past the end of its line: the lines show what the whole text shows, and
no line feed is swallowed. -/
structure StripsByLine (t : Text) : Prop where
  whole : strip t = (Text.splitLines t).flatMap strip
  lineFeeds : (strip t).count '\n' = t.count '\n'

namespace StripsByLine

/-- Before a line starts, the rows are the sum of those of the lines above it. -/
theorem layout_take (h : StripsByLine t) (hk : k < (Text.splitLines t).length) (width : Nat) :
    (layout width ((Text.splitLines t).take k).flatten).rows =
      cutRow width (Text.splitLines t) k := by
  have hcount : ∀ l ∈ (Text.splitLines t).take k, (strip l).count '\n' = l.count '\n' := by
    have hall : ∀ l ∈ Text.splitLines t, (strip l).count '\n' = l.count '\n' := by
      refine (count_flatMap_strip _).2.mp ?_
      rw [← h.whole, Text.splitLines_flatten, h.lineFeeds]
    exact fun l hl => hall l (List.mem_of_mem_take hl)
  have hended := Text.splitLines_take_ended hk
  have hshown : ∀ l ∈ (Text.splitLines t).take k, ∃ u, strip l = u ++ ['\n'] := by
    intro l hl
    obtain ⟨q, rfl⟩ := hended l hl
    exact run_concat_lineFeed (hcount _ hl)
  have htext : ((Text.splitLines t).take k).flatten ++ ((Text.splitLines t).drop k).flatten = t := by
    rw [← List.flatten_append, List.take_append_drop, Text.splitLines_flatten]
  have hsingly : ((Text.splitLines t).take k).flatMap strip <+: strip t := by
    refine ⟨((Text.splitLines t).drop k).flatMap strip, ?_⟩
    rw [← List.flatMap_append, List.take_append_drop, h.whole]
  have hstrip : strip ((Text.splitLines t).take k).flatten =
      ((Text.splitLines t).take k).flatMap strip := by
    refine strip_flatten (t := ((Text.splitLines t).drop k).flatten) hended hcount ?_ ?_
    · rw [htext, h.lineFeeds]
    · rwa [htext]
  rw [layout, hstrip, layoutShown_lines hshown]

end StripsByLine

/-- A reader that is in no escape sequence at any line feed strips line by line. -/
theorem stripsByLine_of_ground
    (h : ∀ s u, t = s ++ '\n' :: u → (run .ground s).1 = .ground) : StripsByLine t := by
  have hnone : ∀ q ∈ Text.lines t, '\n' ∉ q := fun q hq hmem => (Text.split_mem hq hmem).2 rfl
  rw [← Text.joinLines_lines t] at h ⊢
  generalize Text.lines t = qs at h hnone ⊢
  induction qs with
  | nil => exact ⟨rfl, rfl⟩
  | cons q qs ih =>
    obtain ⟨hq, hrest⟩ := List.forall_mem_cons.mp hnone
    have hcount : (strip q).count '\n' = q.count '\n' := by
      have hle := count_run_le .ground q
      rw [List.count_eq_zero_of_not_mem hq] at hle ⊢
      exact Nat.le_zero.mp hle
    cases qs with
    | nil =>
      rw [Text.joinLines_singleton]
      refine ⟨?_, hcount⟩
      by_cases hempty : q = []
      · rw [hempty]
        rfl
      · rw [Text.splitLines_of_not_mem hq hempty, List.flatMap_singleton]
    | cons r qs =>
      rw [Text.joinLines_cons_cons] at h ⊢
      have hground := h q _ rfl
      have hrun (u : Text) : run .ground (q ++ '\n' :: u) =
          ((run .ground u).1, strip q ++ '\n' :: strip u) := by
        rw [run_append, hground]
        rfl
      obtain ⟨hwhole, hfeeds⟩ := ih (fun s u hs => by
        have hlater := h (q ++ '\n' :: s) u (by rw [hs, List.append_assoc, List.cons_append])
        rwa [hrun] at hlater) hrest
      refine ⟨?_, ?_⟩
      · rw [Text.splitLines_append_lineFeed hq, List.flatMap_cons, ← hwhole]
        simp only [strip, hrun]
        simp [run]
      · rw [strip, hrun, List.count_append, List.count_append, hcount, List.count_cons_self,
          List.count_cons_self, hfeeds]

def placedLines (t : Text) : List (Nat × Text) :=
  (Text.starts 0 (Text.splitLines t)).zip (Text.splitLines t)

def startsAbove (t : Text) (row width : Nat) (line : Nat × Text) : Bool :=
  (Text.slice? 0 line.1 t).any fun before => (layout width before).rows < row

theorem placedLines_length (t : Text) : (placedLines t).length = (Text.splitLines t).length := by
  rw [placedLines, List.length_zip, Text.starts_length, Nat.min_self]

theorem placedLines_map_snd (t : Text) : (placedLines t).map Prod.snd = Text.splitLines t :=
  List.map_snd_zip (Nat.le_of_eq (Text.starts_length 0 _).symm)

theorem slice?_placed (hk : k < (placedLines t).length) :
    Text.slice? 0 (placedLines t)[k].1 t = some ((Text.splitLines t).take k).flatten := by
  have hstart : (placedLines t)[k].1 = Text.bytes ((Text.splitLines t).take k).flatten := by
    have hget := Text.starts_getElem? 0 k (Text.splitLines t)
    rw [if_pos (placedLines_length t ▸ hk), Nat.zero_add] at hget
    simp only [placedLines, List.getElem_zip]
    exact (List.getElem?_eq_some_iff.mp hget).2
  have hslice := Text.slice?_bytes [] ((Text.splitLines t).take k).flatten
    ((Text.splitLines t).drop k).flatten
  rw [List.nil_append, ← List.flatten_append, List.take_append_drop, Text.splitLines_flatten,
    Text.bytes, Nat.zero_add] at hslice
  rw [hstart, hslice]

/-- A predicate that holds of the first entries of a list and of no other one. -/
theorem filter_eq_take {α : Type} {p : α → Bool} {xs : List α} {m : Nat}
    (h : ∀ (k : Nat) (hk : k < xs.length), p xs[k] = true ↔ k < m) :
    xs.filter p = xs.take m ∧ xs.filter (fun x => !p x) = xs.drop m := by
  induction xs generalizing m with
  | nil => simp
  | cons x xs ih =>
    have hfirst := h 0 (Nat.succ_pos _)
    rw [List.getElem_cons_zero] at hfirst
    cases m with
    | zero =>
      have hx : p x = false := by simpa using hfirst
      have hrest := ih (m := 0) fun k hk => by simpa using h (k + 1) (Nat.succ_lt_succ hk)
      simp [hx, hrest]
    | succ m =>
      have hx : p x = true := by simpa using hfirst
      have hrest := ih (m := m) fun k hk => by simpa using h (k + 1) (Nat.succ_lt_succ hk)
      simp [hx, hrest]

/-- Above the cut are the lines before which the text takes fewer rows, which come first, and below it
are all the others. -/
structure CutByRow (t : Text) (row width : Nat) : Prop where
  before : linesBefore t row width =
    (((placedLines t).filter (startsAbove t row width)).map Prod.snd).flatten
  after : linesAfter t row width =
    (((placedLines t).filter fun line => !startsAbove t row width line).map Prod.snd).flatten
  ordered : (placedLines t).filter (startsAbove t row width) ++
    (placedLines t).filter (fun line => !startsAbove t row width line) = placedLines t

theorem StripsByLine.cutByRow (h : StripsByLine t) (row width : Nat) : CutByRow t row width := by
  have hlength := placedLines_length t
  have hsnd := placedLines_map_snd t
  obtain ⟨m, -, hcut, hrows⟩ := cutLines_eq width row 0 (Text.splitLines t)
  have habove (k : Nat) (hk : k < (placedLines t).length) :
      startsAbove t row width (placedLines t)[k] = true ↔ k < m := by
    rw [hlength] at hk
    rw [startsAbove, slice?_placed, Option.any_some, decide_eq_true_eq, h.layout_take hk, hrows k hk,
      Nat.zero_add]
  obtain ⟨htake, hdrop⟩ := filter_eq_take habove
  refine ⟨?_, ?_, ?_⟩
  · rw [linesBefore, hcut, htake, List.map_take, hsnd]
  · rw [linesAfter, hcut, hdrop, List.map_drop, hsnd]
  · rw [htake, hdrop, List.take_append_drop]

/-- So it is for a text in which every escape sequence ends on its line. -/
theorem cutByRow_of_ground (h : ∀ s u, t = s ++ '\n' :: u → (run .ground s).1 = .ground)
    (row width : Nat) : CutByRow t row width := (stripsByLine_of_ground h).cutByRow row width

/-- A cut at a row parts the lines by the rows on which they really start. -/
theorem lines_split_by_row (h : StripsByLine t) (row width : Nat) :
    let placed := placedLines t
    let above := placed.filter (startsAbove t row width)
    let below := placed.filter fun line => !startsAbove t row width line
    linesBefore t row width = (above.map Prod.snd).flatten ∧
      linesAfter t row width = (below.map Prod.snd).flatten ∧
      above ++ below = placed ∧ linesBefore t row width <+: t ∧
      placed.map Prod.snd = Text.splitLines t ∧
      ∀ line ∈ placed, ∃ before, Text.slice? 0 line.1 t = some before := by
  have hcut := h.cutByRow row width
  refine ⟨hcut.before, hcut.after, hcut.ordered, ⟨_, linesBefore_append_linesAfter t row width⟩,
    placedLines_map_snd t, fun line hline => ?_⟩
  obtain ⟨k, hk, rfl⟩ := List.mem_iff_getElem.mp hline
  exact ⟨_, slice?_placed hk⟩

/-- In colour: a row that is full to the edge, an empty line and a line that wraps are above row 3. -/
theorem coloured_lines_split :
    let t := "\x1b[1mab漢\x1b[0m\n\n漢漢漢\nc".toList
    StripsByLine t ∧ linesBefore t 3 4 = "\x1b[1mab漢\x1b[0m\n\n漢漢漢\n".toList ∧
      linesAfter t 3 4 = "c".toList ∧ linesBefore t 3 4 <+: t := by
  intro t
  have h : StripsByLine t := ⟨by decide, by decide⟩
  obtain ⟨hbefore, hafter, -, hprefix, -⟩ := lines_split_by_row h 3 4
  exact ⟨h, hbefore.trans (by decide), hafter.trans (by decide), hprefix⟩

/-- A line feed that an escape sequence swallows starts no row, although a cut counts one. Both lines
start on the first row then, and they show the same as one text. -/
example :
    let t := "a\x1b]\n\x1b\\b\n".toList
    strip t = (Text.splitLines t).flatMap strip ∧
      (placedLines t).map (startsAbove t 1 80) = [true, true] ∧
      linesBefore t 1 80 = "a\x1b]\n".toList := by decide

end Promptline.Display
