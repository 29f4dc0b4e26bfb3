import Promptline.Proofs.Display.Cut
import Promptline.Session.Redraw

set_option autoImplicit false

namespace Promptline.Display

/-- The control characters: those below the blank, delete, and the upper ones. -/
def isControl (c : Char) : Bool := c.toNat < 0x20 || (0x7F ≤ c.toNat && c.toNat ≤ 0x9F)

def Printable (t : Text) : Prop := ∀ c ∈ t, isControl c = false

abbrev Visible (c : Char) : Prop := c = '\n' ∨ isControl c = false

def Clean (t : Text) : Prop := ∀ c ∈ t, Visible c

instance (t : Text) : Decidable (Printable t) := List.decidableBAll (isControl · = false) t

instance (t : Text) : Decidable (Clean t) := List.decidableBAll Visible t

/-- A presenter that makes one line of each line and adds nothing to it but whole escape sequences. -/
structure Faithful (style : Text → Text) : Prop where
  shown {l : Text} : Printable l → run .ground (style l) = (.ground, l)
  noLineFeed {l : Text} : Printable l → '\n' ∉ style l

variable {s t q : Text} {qs ls : List Text} {p : Prompts} {style : Text → Text}

theorem Printable.not_mem (h : Printable t) : '\n' ∉ t := by
  intro hmem
  have hcontrol := h _ hmem
  exact absurd hcontrol (by decide)

theorem Clean.lines (h : Clean t) : ∀ l ∈ Text.lines t, Printable l := by
  intro l hl c hc
  obtain ⟨hmem, hne⟩ := Text.split_mem hl hc
  exact (h c hmem).resolve_left hne

theorem step_visible {c : Char} (h : Visible c) :
    step .ground c = (.ground, [c]) := by
  rcases h with rfl | h
  · rfl
  · simp only [isControl, Bool.or_eq_false_iff, Bool.and_eq_false_iff, decide_eq_false_iff_not] at h
    have hescape : c.toNat ≠ 0x1B := by omega
    have hlost : (c.toNat < 0x20 || (0x80 ≤ c.toNat && c.toNat ≤ 0x9F)) = false := by
      simp only [Bool.or_eq_false_iff, Bool.and_eq_false_iff, decide_eq_false_iff_not]
      omega
    simp only [step, if_neg hescape, hlost]
    split <;> rfl

theorem run_clean (h : Clean t) : run .ground t = (.ground, t) := by
  induction t with
  | nil => rfl
  | cons c t ih =>
    have hc := step_visible (h c List.mem_cons_self)
    have ht := ih fun d hd => h d (List.mem_cons_of_mem _ hd)
    simp only [run, hc, ht, List.singleton_append]

theorem Printable.run (h : Printable t) : run .ground t = (.ground, t) :=
  run_clean fun c hc => Or.inr (h c hc)

theorem run_ground_append (hs : run .ground s = (.ground, t)) {s' t' : Text}
    (hs' : run .ground s' = (.ground, t')) : run .ground (s ++ s') = (.ground, t ++ t') := by
  rw [run_append, hs, hs']

theorem run_showLines (hstyle : Faithful style) (hfirst : Printable p.first)
    (hcontinuation : Printable p.continuation) (hls : ∀ l ∈ ls, Printable l) :
    run .ground (p.showLines style ls) = (.ground, p.showLines id ls) := by
  cases ls with
  | nil => exact hfirst.run
  | cons line rest =>
    have hline := run_ground_append hfirst.run (hstyle.shown (hls line List.mem_cons_self))
    refine run_ground_append hline ?_
    have hrest : ∀ l ∈ rest, Printable l := fun l hl => hls l (List.mem_cons_of_mem _ hl)
    clear hls hline
    induction rest with
    | nil => rfl
    | cons l rest ih =>
      have hl := hstyle.shown (hrest l List.mem_cons_self)
      have hpiece := run_ground_append (s := ['\n']) rfl (run_ground_append hcontinuation.run hl)
      have htail := ih fun m hm => hrest m (List.mem_cons_of_mem _ hm)
      exact run_ground_append hpiece htail

theorem faithful_plain : Faithful Session.Presenter.plain where
  shown hl := hl.run
  noLineFeed hl := hl.not_mem

/-- Whole escape sequences around a line are faithful to it. -/
theorem faithful_enclosed {left right : Text} (hleft : run .ground left = (.ground, []))
    (hright : run .ground right = (.ground, [])) (hnone : '\n' ∉ left ++ right) :
    Faithful (Session.Presenter.enclosed left right) where
  shown {l} hl := by
    have hboth := run_ground_append (run_ground_append hleft hl.run) hright
    rwa [List.nil_append, List.append_nil] at hboth
  noLineFeed {l} hl hmem := by
    simp only [Session.Presenter.enclosed, List.mem_append] at hmem
    rcases hmem with (hmem | hmem) | hmem
    · exact hnone (List.mem_append_left _ hmem)
    · exact hl.not_mem hmem
    · exact hnone (List.mem_append_right _ hmem)

theorem faithful_bold : Faithful Session.Presenter.bold := faithful_enclosed rfl rfl (by decide)

def pieces (p : Prompts) (style : Text → Text) : List Text → List Text
  | [] => [p.first]
  | line :: rest => (p.first ++ style line) :: rest.map fun l => p.continuation ++ style l

theorem showLines_eq (p : Prompts) (style : Text → Text) (ls : List Text) :
    p.showLines style ls = Text.joinLines (pieces p style ls) := by
  cases ls with
  | nil => simp [Prompts.showLines, pieces, Text.joinLines_cons]
  | cons line rest =>
    rw [pieces, Text.joinLines_cons, Prompts.showLines, List.flatMap_map]
    rfl

theorem pieces_ne_nil (p : Prompts) (style : Text → Text) (ls : List Text) :
    pieces p style ls ≠ [] := by
  cases ls <;> exact List.cons_ne_nil _ _

theorem pieces_length (p : Prompts) (style : Text → Text) (hls : ls ≠ []) :
    (pieces p style ls).length = ls.length := by
  obtain ⟨line, rest, rfl⟩ := List.exists_cons_of_ne_nil hls
  simp [pieces]

theorem pieces_take (hls : ls ≠ []) (k : Nat) :
    (pieces p style ls).take (k + 1) = pieces p style (ls.take (k + 1)) := by
  cases ls with
  | nil => exact absurd rfl hls
  | cons line rest => simp [pieces]

/-- The lines above a line settle which prompt stands before it. -/
theorem pieces_append (p : Prompts) (style : Text → Text) (above : List Text) :
    ∃ shown prompt, shown.length = above.length ∧ (above ≠ [] → prompt = p.continuation) ∧
      ∀ line below, pieces p style (above ++ line :: below) =
        shown ++ (prompt ++ style line) :: below.map fun l => p.continuation ++ style l := by
  cases above with
  | nil => exact ⟨[], p.first, rfl, fun h => absurd rfl h, fun _ _ => rfl⟩
  | cons first above =>
    refine ⟨(p.first ++ style first) :: above.map fun l => p.continuation ++ style l, p.continuation,
      by simp, fun _ => rfl, fun line below => ?_⟩
    simp [pieces]

theorem pieces_not_mem (hstyle : Faithful style) (hfirst : Printable p.first)
    (hcontinuation : Printable p.continuation) (hls : ∀ l ∈ ls, Printable l) :
    ∀ q ∈ pieces p style ls, '\n' ∉ q := by
  have hpiece {prompt l : Text} (hprompt : Printable prompt) (hl : l ∈ ls) :
      '\n' ∉ prompt ++ style l := by
    intro hmem
    rcases List.mem_append.mp hmem with hmem | hmem
    · exact hprompt.not_mem hmem
    · exact hstyle.noLineFeed (hls l hl) hmem
  cases ls with
  | nil =>
    intro q hq
    rw [List.mem_singleton.mp hq]
    exact hfirst.not_mem
  | cons line rest =>
    intro q hq
    rcases List.mem_cons.mp hq with rfl | hq
    · exact hpiece hfirst List.mem_cons_self
    · obtain ⟨l, hl, rfl⟩ := List.mem_map.mp hq
      exact hpiece hcontinuation (List.mem_cons_of_mem _ hl)

open Session (dropLineFeed)

theorem dropLineFeed_of_not_mem (h : '\n' ∉ t) : dropLineFeed t = t := by
  refine if_neg fun hlast => h ?_
  exact List.mem_of_getLast? hlast

theorem dropLineFeed_append (s : Text) (h : t ≠ []) :
    dropLineFeed (s ++ t) = s ++ dropLineFeed t := by
  obtain ⟨rest, c, rfl⟩ := (List.eq_nil_or_concat t).resolve_left h
  unfold dropLineFeed
  rw [List.concat_eq_append, ← List.append_assoc, List.getLast?_concat, List.getLast?_concat,
    List.dropLast_concat, List.dropLast_concat]
  split
  · rfl
  · rw [List.append_assoc]

theorem dropLineFeed_concat (t : Text) : dropLineFeed (t ++ ['\n']) = t := by
  have hne : (['\n'] : Text) ≠ [] := List.cons_ne_nil _ _
  rw [dropLineFeed_append t hne]
  exact List.append_nil t

theorem flatten_take_splitLines (h : '\n' ∉ t) (m : Nat) :
    ((Text.splitLines t).take (m + 1)).flatten = t := by
  by_cases ht : t = []
  · rw [ht]
    rfl
  · rw [Text.splitLines_of_not_mem h ht]
    simp

/-- The first of joined lines, without the line feed at their end. -/
theorem dropLineFeed_take {m : Nat} (hqs : ∀ q ∈ qs, '\n' ∉ q)
    (hm : m < (Text.splitLines (Text.joinLines qs)).length) :
    dropLineFeed ((Text.splitLines (Text.joinLines qs)).take (m + 1)).flatten =
      Text.joinLines (qs.take (m + 1)) := by
  induction qs generalizing m with
  | nil => exact absurd hm (Nat.not_lt_zero m)
  | cons q rest ih =>
    obtain ⟨hq, hrest⟩ := List.forall_mem_cons.mp hqs
    cases rest with
    | nil =>
      rw [Text.joinLines_singleton, flatten_take_splitLines hq, dropLineFeed_of_not_mem hq,
        List.take_succ_cons, List.take_nil, Text.joinLines_singleton]
    | cons r rest =>
      rw [Text.joinLines_cons_cons, Text.splitLines_append_lineFeed hq] at hm ⊢
      rw [List.take_succ_cons, List.flatten_cons]
      cases m with
      | zero =>
        rw [List.take_zero, List.flatten_nil, List.append_nil, dropLineFeed_concat]
        simp [Text.joinLines_singleton]
      | succ m =>
        have hm : m < (Text.splitLines (Text.joinLines (r :: rest))).length :=
          Nat.lt_of_succ_lt_succ hm
        have hsome : ((Text.splitLines (Text.joinLines (r :: rest))).take (m + 1)).flatten ≠ [] := by
          obtain ⟨line, later, hcons⟩ := List.exists_cons_of_length_pos (Nat.zero_lt_of_lt hm)
          have hline : line ∈ Text.splitLines (Text.joinLines (r :: rest)) := by
            rw [hcons]
            exact List.mem_cons_self
          rw [hcons, List.take_succ_cons, List.flatten_cons]
          exact List.append_ne_nil_of_left_ne_nil (Text.mem_splitLines_ne_nil hline) _
        rw [dropLineFeed_append _ hsome, ih hrest hm, List.take_succ_cons, List.take_succ_cons,
          List.take_succ_cons, Text.joinLines_cons_cons]
        simp

/-- Lines cut at a row, without the line feed at their end, are the first of the lines: the very first
one, and all that are split off and start on or above the row. -/
theorem linesBefore_joinLines (hqs : ∀ q ∈ qs, '\n' ∉ q) (hne : qs ≠ []) (row width : Nat) :
    ∃ m < qs.length,
      dropLineFeed (linesBefore (Text.joinLines qs) (row + 1) width) =
        Text.joinLines (qs.take (m + 1)) ∧
      ∀ k < qs.length, k ≤ m ↔ k = 0 ∨
        (k < (Text.splitLines (Text.joinLines qs)).length ∧
          cutRow width (Text.splitLines (Text.joinLines qs)) k ≤ row) := by
  obtain ⟨m, hm, hcut, hrows⟩ := cutLines_eq width (row + 1) 0 (Text.splitLines (Text.joinLines qs))
  have hlength := Text.lt_length_splitLines hqs
  rw [linesBefore, hcut]
  cases m with
  | zero =>
    -- The first line always starts above the row, so nothing has been split off.
    have hnone : (Text.splitLines (Text.joinLines qs)).length = 0 := by
      refine Nat.eq_zero_of_not_pos fun hpos => ?_
      have hfirst := (hrows 0 hpos).mpr (by rw [cutRow_zero]; exact Nat.succ_pos _)
      exact absurd hfirst (Nat.lt_irrefl 0)
    have hempty := Text.splitLines_flatten (Text.joinLines qs)
    rw [List.length_eq_zero_iff.mp hnone] at hempty
    obtain ⟨q, rest, rfl⟩ := List.exists_cons_of_ne_nil hne
    obtain ⟨rfl, rfl⟩ := Text.joinLines_eq_nil hempty.symm
    exact ⟨0, Nat.one_pos, rfl, by simp⟩
  | succ m =>
    refine ⟨m, ((hlength m).mp hm).1, dropLineFeed_take hqs hm, fun k _ => ?_⟩
    by_cases hsplit : k < (Text.splitLines (Text.joinLines qs)).length
    · have hk := hrows k hsplit
      by_cases hfirst : k = 0
      · simp [hfirst]
      · simp only [hfirst, hsplit, true_and, false_or]
        omega
    · simp only [hsplit, false_and, or_false]
      omega

/-- Lines that are displayed, cut at a row, are the first of the lines. -/
theorem linesBefore_showLines (hstyle : Faithful style) (hfirst : Printable p.first)
    (hcontinuation : Printable p.continuation) (hls : ∀ l ∈ ls, Printable l) (hne : ls ≠ [])
    (row width : Nat) :
    ∃ k, dropLineFeed (linesBefore (p.showLines style ls) (row + 1) width) =
      p.showLines style (ls.take (k + 1)) := by
  have hnone := pieces_not_mem hstyle hfirst hcontinuation hls
  obtain ⟨k, -, hk, -⟩ := linesBefore_joinLines hnone (pieces_ne_nil p style ls) row width
  exact ⟨k, by rw [showLines_eq, hk, pieces_take hne, showLines_eq]⟩

end Promptline.Display
