import Promptline.Text.Cluster

/-!
Where the clusters of a text end. Whether a place is between two clusters is a matter of the character
after it and of what stands before it. No rule looks back past a place that is, so that what follows
has clusters of its own.
-/

set_option autoImplicit false

namespace Promptline.Text

variable {earlier later s t u : Text} {c d : Char} {done rest : List Text}

/-- The first character of `t` belongs to the cluster that ends the text before it, which is given
latest character first. -/
def continues (earlier t : Text) : Bool := t.head?.any (Cluster.joins earlier)

/-- The first character of `t` belongs to the cluster that ends `s`. -/
def Joins (s t : Text) : Prop := continues s.reverse t = true

instance (s t : Text) : Decidable (Joins s t) := inferInstanceAs (Decidable (_ = true))

theorem continues_nil (earlier : Text) : continues earlier [] = false := rfl

theorem continues_cons (earlier : Text) (c : Char) (t : Text) :
    continues earlier (c :: t) = Cluster.joins earlier c := rfl

theorem nil_continues (t : Text) : continues [] t = false := by cases t <;> rfl

theorem continues_append (hs : s ≠ []) (earlier t : Text) :
    continues earlier (s ++ t) = continues earlier s := by
  obtain ⟨c, s, rfl⟩ := List.exists_cons_of_ne_nil hs
  rfl

theorem clustersAfter_cons_cons (earlier : Text) (c d : Char) (t : Text) :
    ∃ cluster rest, clustersAfter (c :: earlier) (d :: t) = cluster :: rest ∧
      clustersAfter earlier (c :: d :: t) =
        if Cluster.joins (c :: earlier) d then (c :: cluster) :: rest
        else [c] :: cluster :: rest := by
  have hflatten := clustersAfter_flatten (c :: earlier) (d :: t)
  cases hrest : clustersAfter (c :: earlier) (d :: t) with
  | nil =>
    rw [hrest] at hflatten
    cases hflatten
  | cons cluster rest =>
    refine ⟨cluster, rest, rfl, ?_⟩
    rw [clustersAfter]
    exact hrest

theorem nil_not_mem_clustersAfter (earlier t : Text) : [] ∉ clustersAfter earlier t := by
  induction t generalizing earlier with
  | nil => simp [clustersAfter]
  | cons c t ih =>
    cases t with
    | nil => simp [clustersAfter]
    | cons d t =>
      obtain ⟨cluster, rest, hrest, heq⟩ := clustersAfter_cons_cons earlier c d t
      have hmem := ih (c :: earlier)
      rw [hrest, List.mem_cons, not_or] at hmem
      rw [heq]
      split <;> simp [hmem]

theorem clustersAfter_append (h : continues (s.reverse ++ earlier) t = false) :
    clustersAfter earlier (s ++ t) =
      clustersAfter earlier s ++ clustersAfter (s.reverse ++ earlier) t := by
  induction s generalizing earlier with
  | nil => rfl
  | cons c s ih =>
    rw [List.reverse_cons, List.append_assoc, List.singleton_append] at h ⊢
    cases s with
    | nil =>
      cases t with
      | nil => rfl
      | cons d t =>
        obtain ⟨cluster, rest, hrest, heq⟩ := clustersAfter_cons_cons earlier c d t
        change clustersAfter earlier (c :: d :: t) = [c] :: clustersAfter (c :: earlier) (d :: t)
        have hbreak : ¬ Cluster.joins (c :: earlier) d = true := Bool.eq_false_iff.mp h
        rw [heq, hrest, if_neg hbreak]
    | cons d s =>
      obtain ⟨cluster, rest, hrest, heq⟩ := clustersAfter_cons_cons earlier c d s
      obtain ⟨cluster', rest', hrest', heq'⟩ := clustersAfter_cons_cons earlier c d (s ++ t)
      have hsplit := ih h
      rw [List.cons_append, hrest', hrest, List.cons_append] at hsplit
      obtain ⟨rfl, rfl⟩ := List.cons.inj hsplit
      rw [List.cons_append, List.cons_append, heq', heq]
      split <;> rfl

/-- Whole clusters are followed by a character that does not join them. -/
theorem not_continues_of_clustersAfter (h : clustersAfter earlier t = done ++ rest)
    (hdone : done ≠ []) : continues (done.flatten.reverse ++ earlier) rest.flatten = false := by
  induction t generalizing earlier done with
  | nil =>
    rw [clustersAfter] at h
    exact absurd (List.append_eq_nil_iff.mp h.symm).1 hdone
  | cons c t ih =>
    obtain ⟨first, done, rfl⟩ := List.exists_cons_of_ne_nil hdone
    rw [List.cons_append] at h
    cases t with
    | nil =>
      obtain ⟨-, hnil⟩ := List.cons.inj h
      obtain ⟨-, rfl⟩ := List.append_eq_nil_iff.mp hnil.symm
      rfl
    | cons d t =>
      obtain ⟨cluster, more, hmore, heq⟩ := clustersAfter_cons_cons earlier c d t
      rw [heq] at h
      split at h
      · obtain ⟨rfl, rfl⟩ := List.cons.inj h
        have hnext := ih hmore (List.cons_ne_nil cluster done)
        simpa using hnext
      · rename_i hbreak
        obtain ⟨rfl, htail⟩ := List.cons.inj h
        cases done with
        | nil =>
          have hflatten := clustersAfter_flatten (c :: earlier) (d :: t)
          rw [hmore, htail, List.nil_append] at hflatten
          rw [hflatten]
          exact Bool.eq_false_iff.mpr hbreak
        | cons next done =>
          have hnext := ih (hmore.trans htail) (List.cons_ne_nil _ _)
          simpa using hnext

namespace Cluster

theorem exists_range_of_inRanges {rs : List (Nat × Nat)} {n : Nat} (h : inRanges rs n = true) :
    ∃ r ∈ rs, r.1 ≤ n ∧ n ≤ r.2 := by
  induction rs with
  | nil => cases h
  | cons r rs ih =>
    rw [inRanges] at h
    split at h
    · cases h
    · rename_i hlow
      rcases Bool.or_eq_true_iff.mp h with hhigh | hrest
      · exact ⟨r, List.mem_cons_self, Nat.le_of_not_lt hlow, of_decide_eq_true hhigh⟩
      · obtain ⟨r', hr', hn⟩ := ih hrest
        exact ⟨r', List.mem_cons_of_mem _ hr', hn⟩

theorem classOf_of_isLinker (h : isLinker c = true) : classOf c = .extend := by
  have hall : ∀ r ∈ linkers, r.1 = r.2 ∧ classOf (Char.ofNat r.1) = .extend := by decide +kernel
  obtain ⟨r, hr, hlow, hhigh⟩ := exists_range_of_inRanges h
  obtain ⟨hsingle, hclass⟩ := hall r hr
  rwa [Nat.le_antisymm hlow (hsingle ▸ hhigh), Char.ofNat_toNat] at hclass

/-- A mark joins all but control characters, past which no rule looks back. -/
theorem ends_of_mark (hmark : classOf c = .extend ∨ classOf c = .joiner)
    (h : joins earlier c = false) :
    (∀ linked, endsInConjunct linked earlier = false) ∧ endsInPictograph earlier = false := by
  cases earlier with
  | nil => exact ⟨fun _ => rfl, rfl⟩
  | cons p earlier =>
    have hp : classOf p = .control ∨ classOf p = .carriageReturn ∨ classOf p = .lineFeed := by
      rw [joins] at h
      rcases hmark with hmark | hmark <;> rw [hmark] at h <;> cases hp : classOf p <;> simp_all
    have hlinker : isLinker p = false := by
      rw [Bool.eq_false_iff]
      intro hl
      rw [classOf_of_isLinker hl] at hp
      simp at hp
    rcases hp with hp | hp | hp <;>
      simp [endsInConjunct, endsInPictograph, isConjunctMark, hlinker, hp]

section

variable (h : joins earlier c = false)
include h

theorem endsInConjunct_append (linked : Bool) (s : Text) :
    endsInConjunct linked (s ++ c :: earlier) = endsInConjunct linked (s ++ [c]) := by
  induction s generalizing linked with
  | nil =>
    have hblind : isLinker c = true ∨ isConjunctMark c = true →
        ∀ linked, endsInConjunct linked earlier = false := by
      intro hmark
      refine (ends_of_mark ?_ h).1
      rcases hmark with hlinker | hmark
      · exact Or.inl (classOf_of_isLinker hlinker)
      · simp only [isConjunctMark, Bool.or_eq_true, Bool.and_eq_true, decide_eq_true_eq] at hmark
        exact hmark.symm.imp_left And.left
    simp only [List.nil_append, endsInConjunct]
    split
    · rename_i hlinker
      exact hblind (Or.inl hlinker) true
    · split
      · rename_i hmark
        exact hblind (Or.inr hmark) linked
      · rfl
  | cons p s ih => simp only [List.cons_append, endsInConjunct, ih]

theorem endsInPictograph_append (s : Text) :
    endsInPictograph (s ++ c :: earlier) = endsInPictograph (s ++ [c]) := by
  induction s with
  | nil =>
    simp only [List.nil_append, endsInPictograph]
    split
    · rename_i hmark
      exact (ends_of_mark (Or.inl hmark) h).2
    · rfl
    · rfl
  | cons p s ih => simp only [List.cons_append, endsInPictograph, ih]

theorem endsInLoneIndicator_append (s : Text) :
    endsInLoneIndicator (s ++ c :: earlier) = endsInLoneIndicator (s ++ [c]) := by
  induction s with
  | nil =>
    have hpaired : classOf c = .indicator → endsInLoneIndicator earlier = false := by
      intro hc
      cases earlier with
      | nil => rfl
      | cons p earlier =>
        by_cases hp : classOf p = .indicator
        · simpa only [joins, hp, hc] using h
        · simp [endsInLoneIndicator, hp]
    by_cases hc : classOf c = .indicator
    · simp [endsInLoneIndicator, hpaired hc]
    · simp [endsInLoneIndicator, hc]
  | cons p s ih => simp only [List.cons_append, endsInLoneIndicator, ih]

theorem joins_append (s : Text) (d : Char) : joins (s ++ c :: earlier) d = joins (s ++ [c]) d := by
  cases s with
  | nil =>
    have hconjunct := endsInConjunct_append h false []
    have hlone := endsInLoneIndicator_append h []
    rw [List.nil_append, List.nil_append] at hconjunct hlone ⊢
    by_cases hc : classOf c = .joiner
    · simp only [joins, hconjunct, hlone, (ends_of_mark (Or.inr hc) h).2, endsInPictograph]
    · simp only [joins, hconjunct, hlone]
      cases hclass : classOf c with
      | joiner => exact absurd hclass hc
      | _ => cases classOf d <;> rfl
  | cons p s =>
    have hconjunct := endsInConjunct_append h false (p :: s)
    have hpictograph := endsInPictograph_append h s
    have hlone := endsInLoneIndicator_append h (p :: s)
    rw [List.cons_append, List.cons_append] at hconjunct hlone ⊢
    simp only [joins, hconjunct, hpictograph, hlone]

end

end Cluster

theorem clustersAfter_congr
    (h : ∀ u d v, t = u ++ d :: v → u ≠ [] →
      Cluster.joins (u.reverse ++ earlier) d = Cluster.joins (u.reverse ++ later) d) :
    clustersAfter earlier t = clustersAfter later t := by
  induction t generalizing earlier later with
  | nil => rfl
  | cons c t ih =>
    cases t with
    | nil => rfl
    | cons d t =>
      have hrest : clustersAfter (c :: earlier) (d :: t) = clustersAfter (c :: later) (d :: t) := by
        refine ih fun u e v hu _ => ?_
        have hjoins := h (c :: u) e v (by rw [hu]; rfl) (List.cons_ne_nil _ _)
        simpa using hjoins
      have hjoins := h [c] d t rfl (List.cons_ne_nil _ _)
      obtain ⟨cluster, rest, hcluster, heq⟩ := clustersAfter_cons_cons earlier c d t
      obtain ⟨cluster', rest', hcluster', heq'⟩ := clustersAfter_cons_cons later c d t
      rw [hcluster, hcluster'] at hrest
      obtain ⟨rfl, rfl⟩ := List.cons.inj hrest
      rw [List.reverse_singleton, List.singleton_append, List.singleton_append] at hjoins
      rw [heq, heq', hjoins]

/-- What follows whole clusters has the clusters that it has by itself. -/
theorem clustersAfter_of_not_continues (h : continues earlier t = false) :
    clustersAfter earlier t = clusters t := by
  refine clustersAfter_congr fun u d v ht hu => ?_
  obtain ⟨c, u, rfl⟩ := List.exists_cons_of_ne_nil hu
  have hfirst : Cluster.joins earlier c = false := by rwa [ht] at h
  have hjoins := Cluster.joins_append hfirst u.reverse d
  simpa using hjoins

theorem clusters_append (h : continues s.reverse t = false) :
    clusters (s ++ t) = clusters s ++ clusters t := by
  rw [← clustersAfter_of_not_continues h]
  rw [← List.append_nil s.reverse] at h
  have hsplit : clusters (s ++ t) = clusters s ++ clustersAfter (s.reverse ++ []) t :=
    clustersAfter_append h
  rwa [List.append_nil] at hsplit

/-- Between the clusters of a part that is itself between clusters no character joins. -/
theorem not_continues_of_clusters (h : continues earlier t = false)
    (hsplit : clusters t = done ++ rest) :
    continues (done.flatten.reverse ++ earlier) rest.flatten = false := by
  cases done with
  | nil =>
    rw [List.nil_append] at hsplit
    rwa [← hsplit, clusters_flatten]
  | cons first done =>
    rw [← clustersAfter_of_not_continues h] at hsplit
    exact not_continues_of_clustersAfter hsplit (List.cons_ne_nil _ _)

theorem flatten_clusters_ne_nil (hsplit : clusters t = done ++ rest) (hrest : rest ≠ []) :
    rest.flatten ≠ [] := by
  obtain ⟨cluster, rest, rfl⟩ := List.exists_cons_of_ne_nil hrest
  intro hnil
  have hcluster := (List.append_eq_nil_iff.mp hnil).1
  refine nil_not_mem_clustersAfter [] t ?_
  change [] ∈ clusters t
  rw [hsplit, hcluster]
  exact List.mem_append_right done List.mem_cons_self

theorem takeClusters_append (n : Nat) (t : Text) :
    takeClusters n t ++ ((clusters t).drop n).flatten = t := by
  rw [takeClusters, ← List.flatten_append, List.take_append_drop, clusters_flatten]

theorem eq_takeClusters_iff :
    (∃ n, s = takeClusters n (s ++ t)) ↔ continues s.reverse t = false := by
  constructor
  · rintro ⟨n, hs⟩
    have hflatten := takeClusters_append n (s ++ t)
    rw [← hs] at hflatten
    have ht := List.append_cancel_left hflatten
    have hsplit := (List.take_append_drop n (clusters (s ++ t))).symm
    have hnext := not_continues_of_clusters (nil_continues _) hsplit
    change continues ((takeClusters n (s ++ t)).reverse ++ []) _ = false at hnext
    rwa [← hs, ht, List.append_nil] at hnext
  · intro h
    refine ⟨(clusters s).length, ?_⟩
    rw [takeClusters, clusters_append h, List.take_left, clusters_flatten]

/-- Lists of nonempty texts that begin the same list and hold the same text are equal. -/
theorem eq_of_flatten_eq {ls ls' more more' : List Text} (hls : [] ∉ ls) (hls' : [] ∉ ls')
    (happend : ls ++ more = ls' ++ more') (hflatten : ls.flatten = ls'.flatten) : ls = ls' := by
  have hnone {extra : List Text} (hmem : [] ∉ extra) (hnil : extra.flatten = []) : extra = [] := by
    refine List.eq_nil_iff_forall_not_mem.mpr fun l hl => hmem ?_
    rwa [← List.flatten_eq_nil_iff.mp hnil l hl]
  rcases List.append_eq_append_iff.mp happend with ⟨extra, rfl, -⟩ | ⟨extra, rfl, -⟩
  · rw [List.flatten_append, List.self_eq_append_right] at hflatten
    rw [hnone (fun h => hls' (List.mem_append_right _ h)) hflatten, List.append_nil]
  · rw [List.flatten_append, List.append_right_eq_self] at hflatten
    rw [hnone (fun h => hls (List.mem_append_right _ h)) hflatten, List.append_nil]

/-- The first clusters of a text are the clusters of what they hold. -/
theorem clusters_takeClusters (n : Nat) (t : Text) :
    clusters (takeClusters n t) = (clusters t).take n := by
  have hsplit := (List.take_append_drop n (clusters t)).symm
  have hbreak := not_continues_of_clusters (nil_continues t) hsplit
  rw [List.append_nil] at hbreak
  have happend := clusters_append hbreak
  rw [← List.flatten_append, ← hsplit, clusters_flatten] at happend
  refine eq_of_flatten_eq (nil_not_mem_clustersAfter [] _) ?_ (happend.symm.trans hsplit) ?_
  · exact fun h => nil_not_mem_clustersAfter [] t (List.mem_of_mem_take h)
  · rw [clusters_flatten, takeClusters]

namespace Cluster

theorem ite_ne {p : Prop} [Decidable p] {x y z : Class} (hx : x ≠ z) (hy : y ≠ z) :
    (if p then x else y) ≠ z := by
  split <;> assumption

theorem classOf_eq_carriageReturn (c : Char) : classOf c = .carriageReturn ↔ c = '\r' := by
  constructor
  · intro h
    have hcode : c.toNat = 0xD := by
      refine Decidable.byContradiction fun hne => ?_
      simp only [classOf, if_neg hne] at h
      revert h
      repeat' apply ite_ne
      all_goals decide
    rw [← Char.ofNat_toNat c, hcode]
  · rintro rfl
    decide

theorem joins_lineFeed (earlier : Text) :
    joins earlier '\n' = true ↔ earlier.head? = some '\r' := by
  cases earlier with
  | nil => simp [joins]
  | cons p earlier =>
    have hfeed : classOf '\n' = .lineFeed := by decide
    rw [List.head?_cons, Option.some_inj, ← classOf_eq_carriageReturn, joins, hfeed]
    cases classOf p <;> simp

theorem joins_after_lineFeed (earlier : Text) (c : Char) : joins ('\n' :: earlier) c = false := by
  have hfeed : classOf '\n' = .lineFeed := by decide
  rw [joins, hfeed]

def Solitary (c : Char) : Prop :=
  classOf c = .other ∨ classOf c = .control ∨ classOf c = .lineFeed

theorem solitary_of_ascii (hc : c.toNat < 0x80) (hreturn : c ≠ '\r') : Solitary c := by
  have hall : ∀ n < 0x80, Char.ofNat n ≠ '\r' → classOf (Char.ofNat n) = .other ∨
      classOf (Char.ofNat n) = .control ∨ classOf (Char.ofNat n) = .lineFeed := by
    decide +kernel
  have hclass := hall c.toNat hc
  rw [Char.ofNat_toNat] at hclass
  exact hclass hreturn

theorem Solitary.not_joins (hd : Solitary d) (hc : Solitary c) (earlier : Text) :
    joins (d :: earlier) c = false := by
  rcases hd with hd | hd | hd <;> rcases hc with hc | hc | hc <;> simp [joins, hd, hc]

end Cluster

end Promptline.Text
