import Promptline.Proofs.Indent.Depth

set_option autoImplicit false

namespace Promptline.Indent

variable {table : Table} {frames : List Frame} {line : Text} {kind : Kind} {kinds before : List Kind}
  {running : Int}

def Kind.IsCloser (kind : Kind) : Prop := kind = .closeParen ∨ kind = .terminator

def depthAfter (frames : List Frame) (kinds : List Kind) : Int :=
  (kinds.foldl (Nesting.apply frames) ⟨inheritedLevel frames, []⟩).running

theorem frameFor_level (table : Table) (frames : List Frame) (line : Text) :
    (frameFor table frames line).level = depthAfter frames (kindsOf (tokens table line)) :=
  frameOf_level frames _

/-- The last terminator goes back to depth 0 from below, for want of a line that is shallower still, and
the parentheses after it do not go down again as far as the line began. -/
def Resurfaces (frames : List Frame) (kinds : List Kind) : Prop :=
  ∃ before parens, kinds = before ++ .terminator :: List.replicate parens .closeParen ∧
    (∀ f ∈ frames, depthAfter frames before ≤ f.level) ∧ (parens : Int) < -inheritedLevel frames

theorem closers_bases (h : ∀ kind ∈ kinds, kind.IsCloser) (running : Int) :
    (kinds.foldl (Nesting.apply frames) ⟨running, []⟩).bases = [] := by
  induction kinds generalizing running with
  | nil => rfl
  | cons kind rest ih =>
    obtain ⟨hkind, hrest⟩ := List.forall_mem_cons.mp h
    rcases hkind with rfl | rfl
    · exact ih hrest (running - 1)
    · exact ih hrest (enclosingLevel frames running)

theorem parens_foldl (parens : Nat) (running : Int) :
    (List.replicate parens .closeParen).foldl (Nesting.apply frames) ⟨running, []⟩ =
      ⟨running - parens, []⟩ := by
  induction parens generalizing running with
  | zero => simp
  | succ parens ih =>
    rw [List.replicate_succ, List.foldl_cons]
    refine (ih (running - 1)).trans (congrArg (Nesting.mk · []) ?_)
    omega

theorem depthAfter_parens (frames : List Frame) (parens : Nat) :
    depthAfter frames (List.replicate parens .closeParen) = inheritedLevel frames - parens := by
  rw [depthAfter, parens_foldl]

theorem depthAfter_terminator (hbefore : ∀ kind ∈ before, kind.IsCloser) (parens : Nat) :
    depthAfter frames (before ++ .terminator :: List.replicate parens .closeParen) =
      enclosingLevel frames (depthAfter frames before) - parens := by
  have hbases : (before.foldl (Nesting.apply frames) ⟨inheritedLevel frames, []⟩).bases = [] :=
    closers_bases hbefore (inheritedLevel frames)
  unfold depthAfter
  rw [List.foldl_append, List.foldl_cons]
  generalize before.foldl (Nesting.apply frames) ⟨inheritedLevel frames, []⟩ = n at hbases ⊢
  obtain ⟨running, bases⟩ := n
  obtain rfl : bases = [] := hbases
  exact congrArg Nesting.running (parens_foldl parens (enclosingLevel frames running))

theorem closers_cases (h : ∀ kind ∈ kinds, kind.IsCloser) :
    (∃ parens, kinds = List.replicate parens .closeParen) ∨
      ∃ before parens, (∀ kind ∈ before, kind.IsCloser) ∧
        kinds = before ++ .terminator :: List.replicate parens .closeParen := by
  induction kinds with
  | nil => exact Or.inl ⟨0, rfl⟩
  | cons kind rest ih =>
    obtain ⟨hkind, hrest⟩ := List.forall_mem_cons.mp h
    rcases ih hrest with ⟨parens, rfl⟩ | ⟨before, parens, hbefore, rfl⟩
    · rcases hkind with rfl | rfl
      · exact Or.inl ⟨parens + 1, rfl⟩
      · exact Or.inr ⟨[], parens, List.forall_mem_nil _, rfl⟩
    · exact Or.inr ⟨kind :: before, parens, List.forall_mem_cons.mpr ⟨hkind, hbefore⟩, rfl⟩

theorem enclosingLevel_of_lowest (h : ∀ f ∈ frames, running ≤ f.level) :
    enclosingLevel frames running = 0 := by
  rw [← List.nil_append frames, enclosingLevel_append h]
  rfl

/-- A terminator that finds a shallower line goes back at least to where the line began. -/
theorem enclosingLevel_le_inherited {f : Frame} (hf : f ∈ frames) (hlevel : f.level < running) :
    enclosingLevel frames running ≤ inheritedLevel frames := by
  by_cases hinherited : inheritedLevel frames < running
  · exact Int.le_of_eq (enclosingLevel_of_inherited hinherited)
  · unfold enclosingLevel
    cases hfound : frames.reverse.find? (fun f => f.level < running) with
    | none =>
      have hnot := List.find?_eq_none.mp hfound f (List.mem_reverse.mpr hf)
      exact absurd (decide_eq_true hlevel) hnot
    | some g =>
      have hg := List.find?_some hfound
      simp only [decide_eq_true_eq] at hg
      dsimp only
      omega

/-- Closers go up only by a terminator that goes back to depth 0 from below. -/
theorem inheritedLevel_lt_depthAfter_iff (h : ∀ kind ∈ kinds, kind.IsCloser) :
    inheritedLevel frames < depthAfter frames kinds ↔ Resurfaces frames kinds := by
  constructor
  · intro hrise
    rcases closers_cases h with ⟨parens, rfl⟩ | ⟨before, parens, hbefore, rfl⟩
    · rw [depthAfter_parens] at hrise
      omega
    · rw [depthAfter_terminator hbefore] at hrise
      have hlow : ∀ f ∈ frames, depthAfter frames before ≤ f.level := by
        intro f hf
        by_contra hlevel
        have hback := enclosingLevel_le_inherited hf (Int.not_le.mp hlevel)
        omega
      rw [enclosingLevel_of_lowest hlow] at hrise
      exact ⟨before, parens, rfl, hlow, by omega⟩
  · rintro ⟨before, parens, rfl, hlow, hparens⟩
    have hbefore : ∀ kind ∈ before, kind.IsCloser :=
      fun kind hkind => h kind (List.mem_append_left _ hkind)
    rw [depthAfter_terminator hbefore, enclosingLevel_of_lowest hlow]
    omega

/-- A line of closers ends no deeper than it begins, opens no block and leaves a ready text ready,
exactly if no terminator on it goes back to depth 0 from below. -/
theorem closers_open_nothing (h : ∀ kind ∈ kindsOf (tokens table line), kind.IsCloser) :
    let kinds := kindsOf (tokens table line)
    let f := frameFor table frames line
    (f.level ≤ inheritedLevel frames ↔ ¬ Resurfaces frames kinds) ∧
      (openBlocks (frames ++ [f]) <+: openBlocks frames ↔ ¬ Resurfaces frames kinds) ∧
      (isSubmitReady frames = true →
        (isSubmitReady (frames ++ [f]) = true ↔ ¬ Resurfaces frames kinds)) := by
  intro kinds f
  have hlevel : f.level ≤ inheritedLevel frames ↔ ¬ Resurfaces frames kinds := by
    rw [← inheritedLevel_lt_depthAfter_iff h, ← frameFor_level, Int.not_lt]
  have hblocks : openBlocks (frames ++ [f]) <+: openBlocks frames ↔ f.level ≤ inheritedLevel frames :=
    openBlocks_append_isPrefix_iff
  refine ⟨hlevel, hblocks.trans hlevel, fun hready => ?_⟩
  rw [isSubmitReady_iff_openBlocks] at hready ⊢
  rw [hready, List.prefix_nil] at hblocks
  exact hblocks.trans hlevel

/-- Below depth 0, where a terminator finds the line from which a parenthesis was opened: the text
becomes ready. -/
theorem negative_block_closed :
    let frames := scan Table.standard [") )".toList, "(".toList]
    let line := "end x )".toList
    (∀ kind ∈ kindsOf (tokens Table.standard line), kind.IsCloser) ∧
      inheritedLevel frames = -1 ∧ (frameFor Table.standard frames line).level = -3 ∧
      ¬ Resurfaces frames (kindsOf (tokens Table.standard line)) ∧
      openBlocks (advance Table.standard frames line) <+: openBlocks frames := by
  intro frames line
  have hkinds : kindsOf (tokens Table.standard line) = [.terminator, .closeParen] := by decide +kernel
  have hclosers : ∀ kind ∈ kindsOf (tokens Table.standard line), kind.IsCloser := by
    simp [hkinds, Kind.IsCloser]
  have hinherited : inheritedLevel frames = -1 := by decide +kernel
  have hlast : (frameFor Table.standard frames line).level = -3 := by decide +kernel
  have hlevel : (frameFor Table.standard frames line).level ≤ inheritedLevel frames := by
    rw [hinherited, hlast]
    decide
  have hdeep : ¬ Resurfaces frames (kindsOf (tokens Table.standard line)) :=
    (closers_open_nothing hclosers).1.mp hlevel
  exact ⟨hclosers, hinherited, hlast, hdeep, (closers_open_nothing hclosers).2.1.mpr hdeep⟩

/-- A terminator after a stray parenthesis opens a block, and the ready text is no longer ready. -/
theorem terminator_opens_block :
    let frames := scan Table.standard [")".toList]
    let line := "end".toList
    kindsOf (tokens Table.standard line) = [.terminator] ∧
      inheritedLevel frames = -1 ∧ (frameFor Table.standard frames line).level = 0 ∧
      openBlocks frames = [] ∧ openBlocks (advance Table.standard frames line) = [1] ∧
      isSubmitReady frames = true ∧
      isSubmitReady (advance Table.standard frames line) = false := by
  decide +kernel

end Promptline.Indent
