import Promptline.Indent.Scan
import Promptline.Proofs.Indent.OpenBlocks

/-!
Depths that frames pass on to each other. A terminator finds the depth around a block as long as all
lines of the block are at least as deep as it: where it looks back for a line that is shallower, it
finds what the open blocks rise from. A text whose depth has never been negative is ready exactly when
it ends at depth 0.
-/

set_option autoImplicit false

namespace Promptline.Indent

variable {table : Table} {frames inner : List Frame} {level running : Int}

def kindsOf (ts : List Token) : List Kind := ts.filterMap Token.kind?

theorem frameOf_level (frames : List Frame) (ts : List Token) :
    (frameOf frames ts).level =
      ((kindsOf ts).foldl (Nesting.apply frames) ⟨inheritedLevel frames, []⟩).running := rfl

theorem enclosingLevel_append (h : ∀ f ∈ inner, running ≤ f.level) :
    enclosingLevel (frames ++ inner) running = enclosingLevel frames running := by
  have hnone : inner.reverse.find? (fun f => f.level < running) = none := by
    rw [List.find?_eq_none]
    intro f hf
    have hle := h f (List.mem_reverse.mp hf)
    simp only [decide_eq_true_eq]
    omega
  rw [enclosingLevel, List.reverse_append, List.find?_append, hnone]
  rfl

theorem enclosingLevel_of_inherited (h : inheritedLevel frames < running) :
    enclosingLevel frames running = inheritedLevel frames := by
  rcases List.eq_nil_or_concat frames with rfl | ⟨rest, f, rfl⟩
  · rfl
  · rw [List.concat_eq_append, inheritedLevel_append_singleton] at h ⊢
    simp [enclosingLevel, h]

/-- The depths that the open blocks rise from, innermost first. -/
def feet (frames : List Frame) : List Int := (openings frames).map Prod.snd

theorem pairwise_gt_cons_dropWhile {l : List Int} (h : l.Pairwise (· > ·)) (level : Int) :
    (level :: l.dropWhile (level ≤ ·)).Pairwise (· > ·) := by
  refine List.pairwise_cons.mpr ⟨fun a ha => ?_, h.sublist (List.dropWhile_sublist _)⟩
  have hsorted : l.Pairwise fun x y => decide (level ≤ y) = true → decide (level ≤ x) = true :=
    h.imp fun {x y} hxy hy => by
      simp only [decide_eq_true_eq] at hy ⊢
      omega
  have hlow := ((mem_dropWhile_iff hsorted).mp ha).2
  simp only [decide_eq_false_iff_not] at hlow
  omega

theorem dropWhile_eq_self_of_pairwise {level : Int} {l : List Int}
    (h : (level :: l).Pairwise (· > ·)) : l.dropWhile (level ≤ ·) = l := by
  cases l with
  | nil => rfl
  | cons a l =>
    have hlt := (List.pairwise_cons.mp h).1 a List.mem_cons_self
    exact List.dropWhile_cons_of_neg (by simpa using hlt)

theorem feet_append_of_pairwise (h : (inheritedLevel frames :: feet frames).Pairwise (· > ·))
    (f : Frame) :
    feet (frames ++ [f]) = (inheritedLevel frames :: feet frames).dropWhile (f.level ≤ ·) := by
  have hkept : ((openings frames).dropWhile fun o => f.level ≤ o.2).map Prod.snd =
      (feet frames).dropWhile (f.level ≤ ·) := by
    rw [feet, List.dropWhile_map]
    rfl
  rw [feet, openings_append, Openings.step]
  split
  · rename_i hrise
    have hlow : (f.level :: feet frames).Pairwise (· > ·) := by
      obtain ⟨hfeet, hsorted⟩ := List.pairwise_cons.mp h
      exact List.pairwise_cons.mpr ⟨fun a ha => Int.lt_trans (hfeet a ha) hrise, hsorted⟩
    rw [List.map_cons, hkept, dropWhile_eq_self_of_pairwise hlow,
      List.dropWhile_cons_of_neg (by simpa using hrise)]
  · rename_i hrise
    rw [hkept, List.dropWhile_cons_of_pos (by simpa using hrise)]

/-- The level and what the open blocks rise from, from the inside out. -/
theorem feet_pairwise (frames : List Frame) :
    (inheritedLevel frames :: feet frames).Pairwise (· > ·) := by
  induction frames using List.reverseRecOn with
  | nil => exact List.pairwise_singleton _ _
  | append_singleton frames f ih =>
    rw [inheritedLevel_append_singleton, feet_append_of_pairwise ih]
    exact pairwise_gt_cons_dropWhile ih f.level

theorem feet_append (frames : List Frame) (f : Frame) :
    feet (frames ++ [f]) = (inheritedLevel frames :: feet frames).dropWhile (f.level ≤ ·) :=
  feet_append_of_pairwise (feet_pairwise frames) f

theorem dropWhile_dropWhile_le {low high : Int} (h : low ≤ high) (l : List Int) :
    (l.dropWhile (high ≤ ·)).dropWhile (low ≤ ·) = l.dropWhile (low ≤ ·) := by
  induction l with
  | nil => rfl
  | cons a l ih =>
    by_cases ha : high ≤ a
    · have hlow : low ≤ a := Int.le_trans h ha
      rw [List.dropWhile_cons_of_pos (by simpa using ha), ih,
        List.dropWhile_cons_of_pos (by simpa using hlow)]
    · rw [List.dropWhile_cons_of_neg (by simpa using ha)]

/-- The nearest line that is shallower is one that an open block rises from. -/
theorem enclosingLevel_eq (frames : List Frame) (running : Int) :
    enclosingLevel frames running =
      ((inheritedLevel frames :: feet frames).dropWhile (running ≤ ·)).head?.getD 0 := by
  induction frames using List.reverseRecOn with
  | nil =>
    change 0 = (List.dropWhile (running ≤ ·) [0]).head?.getD 0
    by_cases hrunning : running ≤ 0 <;> simp [hrunning]
  | append_singleton frames f ih =>
    rw [inheritedLevel_append_singleton, feet_append]
    by_cases hlevel : running ≤ f.level
    · have hdeep : ∀ g ∈ [f], running ≤ g.level := List.forall_mem_singleton.mpr hlevel
      rw [enclosingLevel_append hdeep, ih,
        List.dropWhile_cons_of_pos (a := f.level) (by simpa using hlevel),
        dropWhile_dropWhile_le hlevel]
    · rw [enclosingLevel_of_inherited (by rw [inheritedLevel_append_singleton]; omega),
        inheritedLevel_append_singleton, List.dropWhile_cons_of_neg (by simpa using hlevel)]
      rfl

theorem inheritedLevel_nonneg (h : ∀ f ∈ frames, 0 ≤ f.level) : 0 ≤ inheritedLevel frames := by
  rcases List.eq_nil_or_concat frames with rfl | ⟨rest, f, rfl⟩
  · exact Int.le_refl 0
  · rw [List.concat_eq_append] at h ⊢
    rw [inheritedLevel_append_singleton]
    exact h f (by simp)

/-- Where no line is below depth 0, a text is ready exactly if it ends there. -/
theorem isSubmitReady_iff (h : ∀ f ∈ frames, 0 ≤ f.level) :
    isSubmitReady frames = true ↔ inheritedLevel frames = 0 := by
  rw [isSubmitReady_iff_openBlocks, openBlocks_eq_nil_iff]
  constructor
  · intro hlow
    exact Int.le_antisymm (hlow 0 (Nat.zero_le _)) (inheritedLevel_nonneg h)
  · intro hzero k _
    rw [hzero]
    exact inheritedLevel_nonneg fun f hf => h f (List.mem_of_mem_take hf)

end Promptline.Indent
