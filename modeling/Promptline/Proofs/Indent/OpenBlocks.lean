import Mathlib.Data.List.Induction
import Promptline.Indent.Frame

set_option autoImplicit false

namespace Promptline.Indent

variable {frames : List Frame} {f : Frame} {i k : Nat}

theorem inheritedLevel_append_singleton (frames : List Frame) (f : Frame) :
    inheritedLevel (frames ++ [f]) = f.level := by
  simp [inheritedLevel]

def levelAfter (frames : List Frame) (k : Nat) : Int := inheritedLevel (frames.take k)

theorem levelAfter_zero (frames : List Frame) : levelAfter frames 0 = 0 := rfl

theorem levelAfter_length (frames : List Frame) :
    levelAfter frames frames.length = inheritedLevel frames := by
  rw [levelAfter, List.take_length]

theorem levelAfter_succ (h : k < frames.length) :
    levelAfter frames (k + 1) = frames[k].level := by
  rw [levelAfter, List.take_succ_eq_append_getElem h, inheritedLevel_append_singleton]

theorem levelAfter_append (frames : List Frame) (f : Frame) (h : k ≤ frames.length) :
    levelAfter (frames ++ [f]) k = levelAfter frames k := by
  rw [levelAfter, levelAfter, List.take_append_of_le_length h]

theorem levelAfter_concat (frames : List Frame) (f : Frame) :
    levelAfter (frames ++ [f]) (frames.length + 1) = f.level := by
  rw [levelAfter, List.take_of_length_le (by simp), inheritedLevel_append_singleton]

/-- Every level from line `i` on is higher than the level before it. -/
def StaysOpen (frames : List Frame) (i : Nat) : Prop :=
  ∀ k, i < k → k ≤ frames.length → levelAfter frames i < levelAfter frames k

theorem staysOpen_append (h : i < frames.length) :
    StaysOpen (frames ++ [f]) i ↔ StaysOpen frames i ∧ levelAfter frames i < f.level := by
  have hbefore := levelAfter_append frames f (Nat.le_of_lt h)
  have hlast := levelAfter_concat frames f
  constructor
  · intro hopen
    refine ⟨fun k hik hk => ?_, ?_⟩
    · have hlevel := hopen k hik (by rw [List.length_append]; omega)
      rwa [hbefore, levelAfter_append frames f hk] at hlevel
    · have hlevel := hopen (frames.length + 1) (by omega) (by simp)
      rwa [hbefore, hlast] at hlevel
  · rintro ⟨hopen, hlevel⟩ k hik hk
    rw [hbefore]
    rcases Nat.lt_or_eq_of_le hk with hlt | rfl
    · have hk : k ≤ frames.length := by
        rw [List.length_append, List.length_singleton] at hlt
        omega
      rw [levelAfter_append frames f hk]
      exact hopen k hik hk
    · rw [List.length_append, List.length_singleton, hlast]
      exact hlevel

theorem staysOpen_last : StaysOpen (frames ++ [f]) frames.length ↔ inheritedLevel frames < f.level := by
  have hbefore := levelAfter_append frames f (Nat.le_refl frames.length)
  have hlast := levelAfter_concat frames f
  rw [levelAfter_length] at hbefore
  constructor
  · intro hopen
    have hlevel := hopen (frames.length + 1) (Nat.lt_succ_self _) (by simp)
    rwa [hbefore, hlast] at hlevel
  · intro hlevel k hik hk
    obtain rfl : k = frames.length + 1 := by
      rw [List.length_append, List.length_singleton] at hk
      omega
    rwa [hbefore, hlast]

theorem mem_dropWhile_iff {α : Type} {p : α → Bool} {l : List α} {a : α}
    (h : l.Pairwise fun x y => p y = true → p x = true) :
    a ∈ l.dropWhile p ↔ a ∈ l ∧ p a = false := by
  induction l with
  | nil => simp
  | cons x l ih =>
    obtain ⟨hx, hl⟩ := List.pairwise_cons.mp h
    cases hp : p x with
    | true =>
      have hne (ha : p a = false) : a ≠ x := by
        rintro rfl
        rw [hp] at ha
        cases ha
      rw [List.dropWhile_cons_of_pos hp, ih hl, List.mem_cons]
      exact ⟨fun ⟨ha, hpa⟩ => ⟨Or.inr ha, hpa⟩,
        fun ⟨ha, hpa⟩ => ⟨ha.resolve_left (hne hpa), hpa⟩⟩
    | false =>
      have hnone : ∀ y ∈ x :: l, p y = false := by
        refine List.forall_mem_cons.mpr ⟨hp, fun y hy => ?_⟩
        cases hpy : p y with
        | false => rfl
        | true => rw [← hp, hx y hy hpy]
      rw [List.dropWhile_cons_of_neg (by simp [hp])]
      exact ⟨fun ha => ⟨ha, hnone a ha⟩, And.left⟩

theorem Openings.collect_append (index : Nat) (previous : Int) (stack : Openings)
    (frames : List Frame) (f : Frame) :
    Openings.collect index previous stack (frames ++ [f]) =
      Openings.step (index + frames.length) ((frames.getLast?.map Frame.level).getD previous) f
        (Openings.collect index previous stack frames) := by
  induction frames generalizing index previous stack with
  | nil => rfl
  | cons g rest ih =>
    rw [List.cons_append, Openings.collect, ih, Openings.collect, List.length_cons,
      List.getLast?_cons, Nat.add_right_comm, Nat.add_assoc]
    cases rest.getLast? <;> rfl

def openings (frames : List Frame) : Openings := Openings.collect 0 0 [] frames

theorem openings_append (frames : List Frame) (f : Frame) : openings (frames ++ [f]) =
    Openings.step frames.length (inheritedLevel frames) f (openings frames) := by
  have hlast : (frames.getLast?.map Frame.level).getD 0 = inheritedLevel frames := by
    unfold inheritedLevel
    cases frames.getLast? <;> rfl
  rw [openings, Openings.collect_append, Nat.zero_add, hlast]
  rfl

theorem openBlocks_eq (frames : List Frame) :
    openBlocks frames = ((openings frames).map Prod.fst).reverse := rfl

def OpenedAt (frames : List Frame) (o : Nat × Int) : Prop :=
  o.1 < frames.length ∧ StaysOpen frames o.1 ∧ o.2 = levelAfter frames o.1

/-- One more frame closes the lines that began at its level or above it and opens its own line if it
rises. -/
theorem openedAt_append {o : Nat × Int} : OpenedAt (frames ++ [f]) o ↔
    (OpenedAt frames o ∧ o.2 < f.level) ∨
      (inheritedLevel frames < f.level ∧ o = (frames.length, inheritedLevel frames)) := by
  obtain ⟨index, base⟩ := o
  unfold OpenedAt
  dsimp only
  rw [List.length_append, List.length_singleton, Prod.mk.injEq]
  rcases Nat.lt_trichotomy index frames.length with hlt | rfl | hgt
  · rw [staysOpen_append hlt, levelAfter_append frames f (Nat.le_of_lt hlt)]
    constructor
    · rintro ⟨-, ⟨hopen, hlevel⟩, rfl⟩
      exact Or.inl ⟨⟨hlt, hopen, rfl⟩, hlevel⟩
    · rintro (⟨⟨-, hopen, rfl⟩, hlevel⟩ | ⟨-, rfl, -⟩)
      · exact ⟨Nat.lt_succ_of_lt hlt, ⟨hopen, hlevel⟩, rfl⟩
      · exact absurd hlt (Nat.lt_irrefl _)
  · rw [staysOpen_last, levelAfter_append frames f (Nat.le_refl _), levelAfter_length]
    constructor
    · rintro ⟨-, hrise, hbase⟩
      exact Or.inr ⟨hrise, rfl, hbase⟩
    · rintro (⟨⟨hlt, -⟩, -⟩ | ⟨hrise, -, hbase⟩)
      · exact absurd hlt (Nat.lt_irrefl _)
      · exact ⟨Nat.lt_succ_self _, hrise, hbase⟩
  · constructor
    · rintro ⟨hlt, -⟩
      omega
    · rintro (⟨⟨hlt, -⟩, -⟩ | ⟨-, rfl, -⟩) <;> omega

structure Openings.Describes (stack : Openings) (frames : List Frame) : Prop where
  sorted : stack.Pairwise fun inner outer => outer.1 < inner.1
  mem_iff : ∀ o, o ∈ stack ↔ OpenedAt frames o

namespace Openings.Describes

variable {stack : Openings} {o : Nat × Int}

/-- An inner block rises from a higher level, so that what is closed is at the top. -/
theorem mem_kept (h : Describes stack frames) (level : Int) :
    o ∈ stack.dropWhile (fun o => level ≤ o.2) ↔ o ∈ stack ∧ o.2 < level := by
  have hbases : stack.Pairwise fun inner outer =>
      decide (level ≤ outer.2) = true → decide (level ≤ inner.2) = true := by
    refine h.sorted.imp_of_mem fun {inner outer} hinner houter hlt hclosed => ?_
    obtain ⟨hindex, -, hbase⟩ := (h.mem_iff inner).mp hinner
    obtain ⟨-, hopen, hbase'⟩ := (h.mem_iff outer).mp houter
    have hlevel := hopen inner.1 hlt (Nat.le_of_lt hindex)
    simp only [decide_eq_true_eq] at hclosed ⊢
    omega
  rw [mem_dropWhile_iff hbases, decide_eq_false_iff_not, Int.not_le]

theorem kept_sorted (h : Describes stack frames) (level : Int) :
    (stack.dropWhile fun o => level ≤ o.2).Pairwise fun inner outer => outer.1 < inner.1 :=
  h.sorted.sublist (List.dropWhile_sublist _)

/-- A frame keeps what stays open and opens the last line if it rises. -/
theorem mem_step (h : Describes stack frames) (f : Frame) :
    o ∈ Openings.step frames.length (inheritedLevel frames) f stack ↔
      (o ∈ stack ∧ o.2 < f.level) ∨
        (inheritedLevel frames < f.level ∧ o = (frames.length, inheritedLevel frames)) := by
  unfold Openings.step
  dsimp only
  split
  · rename_i hrise
    rw [List.mem_cons, h.mem_kept]
    exact ⟨fun ho => ho.symm.imp_right fun ho => ⟨hrise, ho⟩,
      fun ho => ho.symm.imp_left And.right⟩
  · rename_i hrise
    rw [h.mem_kept]
    exact ⟨Or.inl, fun ho => ho.resolve_right fun hlast => hrise hlast.1⟩

theorem step (h : Describes stack frames) (f : Frame) :
    Describes (Openings.step frames.length (inheritedLevel frames) f stack) (frames ++ [f]) := by
  refine ⟨?_, fun o => by rw [h.mem_step, h.mem_iff, openedAt_append]⟩
  unfold Openings.step
  dsimp only
  split
  · refine List.pairwise_cons.mpr ⟨fun o ho => ?_, h.kept_sorted f.level⟩
    exact ((h.mem_iff o).mp ((h.mem_kept f.level).mp ho).1).1
  · exact h.kept_sorted f.level

end Openings.Describes

theorem openings_describes (frames : List Frame) : (openings frames).Describes frames := by
  induction frames using List.reverseRecOn with
  | nil => exact ⟨List.Pairwise.nil, fun o => by simp [openings, Openings.collect, OpenedAt]⟩
  | append_singleton frames f ih =>
    rw [openings_append]
    exact ih.step f

theorem mem_openBlocks_iff : i ∈ openBlocks frames ↔ i < frames.length ∧ StaysOpen frames i := by
  have hdescribes := openings_describes frames
  rw [openBlocks_eq, List.mem_reverse, List.mem_map]
  constructor
  · rintro ⟨o, ho, rfl⟩
    obtain ⟨hindex, hopen, -⟩ := (hdescribes.mem_iff o).mp ho
    exact ⟨hindex, hopen⟩
  · rintro ⟨hindex, hopen⟩
    exact ⟨(i, levelAfter frames i), (hdescribes.mem_iff _).mpr ⟨hindex, hopen, rfl⟩, rfl⟩

theorem openBlocks_sorted (frames : List Frame) : (openBlocks frames).Pairwise (· < ·) := by
  rw [openBlocks_eq, List.pairwise_reverse, List.pairwise_map]
  exact (openings_describes frames).sorted

/-- One more line opens no block exactly if it does not rise. -/
theorem openBlocks_append_isPrefix_iff :
    openBlocks (frames ++ [f]) <+: openBlocks frames ↔ f.level ≤ inheritedLevel frames := by
  constructor
  · intro hkept
    by_contra hrise
    have hlast : frames.length ∈ openBlocks (frames ++ [f]) :=
      mem_openBlocks_iff.mpr ⟨by simp, staysOpen_last.mpr (Int.not_le.mp hrise)⟩
    exact Nat.lt_irrefl _ (mem_openBlocks_iff.mp (hkept.subset hlast)).1
  · intro hlevel
    rw [openBlocks_eq, openBlocks_eq, openings_append, Openings.step, if_neg (Int.not_lt.mpr hlevel),
      List.reverse_prefix]
    exact (List.dropWhile_suffix _).map _

/-- A level below the last one would leave the line behind its last occurrence open. -/
theorem openBlocks_eq_nil_iff : openBlocks frames = [] ↔
    ∀ k ≤ frames.length, inheritedLevel frames ≤ levelAfter frames k := by
  rw [List.eq_nil_iff_forall_not_mem]
  simp only [mem_openBlocks_iff]
  constructor
  · intro hclosed
    -- From the last line down: no line stays open, so a later level is as low as the one before it.
    have hlow (d : Nat) : ∀ k, k + d = frames.length →
        inheritedLevel frames ≤ levelAfter frames k := by
      induction d using Nat.strongRecOn with
      | ind d ih =>
        intro k hk
        rcases Nat.eq_zero_or_pos d with rfl | hd
        · obtain rfl : k = frames.length := hk
          exact Int.le_of_eq (levelAfter_length frames).symm
        · have hnot := hclosed k
          simp only [StaysOpen, not_and, not_forall, Int.not_lt] at hnot
          obtain ⟨j, hkj, hj, hle⟩ := hnot (by omega)
          exact Int.le_trans (ih (frames.length - j) (by omega) j (by omega)) hle
    exact fun k hk => hlow (frames.length - k) k (by omega)
  · rintro hlow i ⟨hi, hopen⟩
    have hlevel := hopen frames.length hi (Nat.le_refl _)
    rw [levelAfter_length] at hlevel
    exact absurd (hlow i (Nat.le_of_lt hi)) (Int.not_le.mpr hlevel)

theorem inheritedLevel_nonpos (h : openBlocks frames = []) : inheritedLevel frames ≤ 0 := by
  rw [← levelAfter_zero frames]
  exact openBlocks_eq_nil_iff.mp h 0 (Nat.zero_le _)

theorem isSubmitReady_iff_openBlocks : isSubmitReady frames = true ↔ openBlocks frames = [] := by
  rw [isSubmitReady, Bool.and_eq_true, decide_eq_true_eq, List.isEmpty_iff]
  exact ⟨And.left, fun h => ⟨h, inheritedLevel_nonpos h⟩⟩

/-- Whatever the levels, the open blocks are the lines from which every later level is higher than the
one before them, in order, and a text is ready exactly if it ends at the lowest level. -/
theorem openBlocks_of_levels (frames : List Frame) :
    (openBlocks frames).Pairwise (· < ·) ∧
      (∀ i, i ∈ openBlocks frames ↔ ∃ h : i < frames.length,
        levelAfter frames i < frames[i].level ∧
          ∀ k (hk : k < frames.length), i < k → levelAfter frames i < frames[k].level) ∧
      (isSubmitReady frames = true ↔
        ∀ k ≤ frames.length, levelAfter frames frames.length ≤ levelAfter frames k) ∧
      (isSubmitReady frames = true ↔ openBlocks frames = []) := by
  refine ⟨openBlocks_sorted frames, fun i => ?_, ?_, isSubmitReady_iff_openBlocks⟩
  · rw [mem_openBlocks_iff]
    constructor
    · rintro ⟨hi, hopen⟩
      have hlevel (k : Nat) (hk : k < frames.length) (hik : i ≤ k) :
          levelAfter frames i < frames[k].level := by
        rw [← levelAfter_succ hk]
        exact hopen (k + 1) (Nat.lt_succ_of_le hik) hk
      exact ⟨hi, hlevel i hi (Nat.le_refl i), fun k hk hik => hlevel k hk (Nat.le_of_lt hik)⟩
    · rintro ⟨hi, hrise, hlater⟩
      refine ⟨hi, fun k hik hk => ?_⟩
      obtain ⟨k, rfl⟩ := Nat.exists_eq_add_one_of_ne_zero (Nat.ne_zero_of_lt hik)
      rw [levelAfter_succ hk]
      rcases Nat.lt_or_eq_of_le (Nat.le_of_lt_succ hik) with hik | rfl
      · exact hlater k hk hik
      · exact hrise
  · rw [isSubmitReady_iff_openBlocks, openBlocks_eq_nil_iff, levelAfter_length]

/-- A level below 0 opens the line that rises from it, and it stays open below the last rise. -/
example : openBlocks ([2, -1, 1, 0, 3].map fun level => ⟨none, 0, level⟩) = [2, 4] := by decide

end Promptline.Indent
