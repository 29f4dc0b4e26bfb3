import Promptline.Indent.Rule
import Promptline.Proofs.Text.Blank
import Promptline.Proofs.Text.Lines

set_option autoImplicit false

namespace Promptline.Indent

variable {table : Table} {r : Rule} {kind : Kind} {spelling t word covered : Text} {words : List Text}
  {n : Nat}

theorem matchLength?_spelling (h : r.matchLength? t = some n) :
    ∃ spelling ∈ r.spellings, spellingLength? spelling t = some n :=
  List.mem_filterMap.mp (List.max?_mem h)

theorem matchLength?_isSome (hs : spelling ∈ r.spellings) (h : spellingLength? spelling t = some n) :
    (r.matchLength? t).isSome := by
  rw [Rule.matchLength?, List.isSome_max?_iff]
  exact List.ne_nil_of_mem (List.mem_filterMap.mpr ⟨spelling, hs, h⟩)

theorem better_cases (t : Text) (best : Option (Kind × Nat)) (r : Rule) :
    Table.better t best r = best ∨
      ∃ n, r.matchLength? t = some n ∧ Table.better t best r = some (r.kind, n) := by
  unfold Table.better
  split
  · exact Or.inl rfl
  · rename_i n hn
    exact Or.inr ⟨n, hn, rfl⟩
  · rename_i n kind m hn
    split
    · exact Or.inl rfl
    · exact Or.inr ⟨n, hn, rfl⟩

theorem better_isSome (t : Text) (best : Option (Kind × Nat)) (r : Rule) :
    (Table.better t best r).isSome = (best.isSome || (r.matchLength? t).isSome) := by
  unfold Table.better
  cases r.matchLength? t with
  | none => simp
  | some n =>
    cases best with
    | none => rfl
    | some best =>
      dsimp only
      split <;> rfl

theorem longestMatch?_rule (h : table.longestMatch? t = some (kind, n)) :
    ∃ r ∈ table, r.kind = kind ∧ r.matchLength? t = some n := by
  have hfold (best : Option (Kind × Nat)) : table.foldl (Table.better t) best = best ∨
      ∃ r ∈ table, ∃ n, r.matchLength? t = some n ∧ table.foldl (Table.better t) best = some (r.kind, n) := by
    clear h
    induction table generalizing best with
    | nil => exact Or.inl rfl
    | cons r table ih =>
      rcases ih (Table.better t best r) with hsame | ⟨r', hr', hlater⟩
      · rw [List.foldl_cons, hsame]
        exact (better_cases t best r).imp_right fun hr => ⟨r, List.mem_cons_self, hr⟩
      · exact Or.inr ⟨r', List.mem_cons_of_mem r hr', hlater⟩
  rcases hfold none with hnone | ⟨r, hr, m, hm, hsome⟩
  · cases h.symm.trans hnone
  · cases h.symm.trans hsome
    exact ⟨r, hr, rfl, hm⟩

theorem longestMatch?_isSome (t : Text) :
    (table.longestMatch? t).isSome = table.any fun r => (r.matchLength? t).isSome := by
  have hfold (best : Option (Kind × Nat)) : (table.foldl (Table.better t) best).isSome =
      (best.isSome || table.any fun r => (r.matchLength? t).isSome) := by
    induction table generalizing best with
    | nil => simp
    | cons r table ih => rw [List.foldl_cons, ih, better_isSome, List.any_cons, Bool.or_assoc]
  exact hfold none

inductive Covers : List Text → Text → Prop
  | last (word : Text) : Covers [word] word
  | more {word gap covered : Text} {words : List Text} : gap ≠ [] → Text.isBlank gap = true →
      Covers words covered → Covers (word :: words) (word ++ (gap ++ covered))

theorem shortestGap?_covers (h : shortestGap? word t = some n) : ∃ gap rest,
    t = gap ++ (word ++ rest) ∧ gap ≠ [] ∧ Text.isBlank gap = true ∧ gap.length = n := by
  induction t generalizing n with
  | nil => cases h
  | cons c t ih =>
    rw [shortestGap?] at h
    split at h
    · cases h
    · rename_i hc
      have hc : Text.isSpace c = true := by simpa using hc
      split at h
      · rename_i hword
        cases h
        obtain ⟨rest, hrest⟩ := List.isPrefixOf_iff_prefix.mp hword
        exact ⟨[c], rest, by rw [hrest]; rfl, List.cons_ne_nil c [], by simp [Text.isBlank, hc], rfl⟩
      · obtain ⟨m, hm, rfl⟩ := Option.map_eq_some_iff.mp h
        obtain ⟨gap, rest, rfl, -, hblank, rfl⟩ := ih hm
        refine ⟨c :: gap, rest, rfl, List.cons_ne_nil c gap, ?_, rfl⟩
        rw [Text.isBlank, List.all_cons, hc]
        exact hblank

theorem longestGap?_covers (h : longestGap? word t = some n) : ∃ gap rest,
    t = gap ++ (word ++ rest) ∧ gap ≠ [] ∧ Text.isBlank gap = true ∧ gap.length = n := by
  induction t generalizing n with
  | nil => cases h
  | cons c t ih =>
    rw [longestGap?] at h
    split at h
    · cases h
    · rename_i hc
      have hc : Text.isSpace c = true := by simpa using hc
      split at h
      · rename_i m hm
        cases h
        obtain ⟨gap, rest, rfl, -, hblank, rfl⟩ := ih hm
        refine ⟨c :: gap, rest, rfl, List.cons_ne_nil c gap, ?_, rfl⟩
        rw [Text.isBlank, List.all_cons, hc]
        exact hblank
      · split at h
        · rename_i hword
          cases h
          obtain ⟨rest, hrest⟩ := List.isPrefixOf_iff_prefix.mp hword
          exact ⟨[c], rest, by rw [hrest]; rfl, List.cons_ne_nil c [], by simp [Text.isBlank, hc], rfl⟩
        · cases h

theorem coverAfterGap?_covers (hwords : words ≠ []) (h : coverAfterGap? words t = some n) :
    ∃ gap covered rest, t = gap ++ (covered ++ rest) ∧ gap ≠ [] ∧ Text.isBlank gap = true ∧
      Covers words covered ∧ gap.length + covered.length = n := by
  induction words generalizing t n with
  | nil => exact absurd rfl hwords
  | cons word words ih =>
    cases words with
    | nil =>
      obtain ⟨m, hm, rfl⟩ := Option.map_eq_some_iff.mp h
      obtain ⟨gap, rest, rfl, hgap, hblank, rfl⟩ := longestGap?_covers hm
      exact ⟨gap, word, rest, rfl, hgap, hblank, .last word, rfl⟩
    | cons next words =>
      rw [coverAfterGap?] at h
      · split at h
        · cases h
        · rename_i k hk
          obtain ⟨gap, rest, rfl, hgap, hblank, rfl⟩ := shortestGap?_covers hk
          rw [← List.append_assoc, ← List.length_append, List.drop_left] at h
          obtain ⟨m, hm, rfl⟩ := Option.map_eq_some_iff.mp h
          obtain ⟨gap', covered, rest', rfl, hgap', hblank', hcovers, rfl⟩ :=
            ih (List.cons_ne_nil next words) hm
          refine ⟨gap, word ++ (gap' ++ covered), rest', by simp, hgap, hblank,
            .more hgap' hblank' hcovers, ?_⟩
          simp only [List.length_append]
          omega
      · simp

/-- The characters counted are words with white space between. -/
theorem coverLength?_covers (hwords : words ≠ []) (h : coverLength? words t = some n) :
    ∃ covered rest, t = covered ++ rest ∧ Covers words covered ∧ covered.length = n := by
  cases words with
  | nil => exact absurd rfl hwords
  | cons word words =>
    rw [coverLength?] at h
    split at h
    · rename_i hword
      obtain ⟨rest, rfl⟩ := List.isPrefixOf_iff_prefix.mp hword
      rw [List.drop_left] at h
      obtain ⟨m, hm, rfl⟩ := Option.map_eq_some_iff.mp h
      cases words with
      | nil =>
        cases hm
        exact ⟨word, rest, rfl, .last word, rfl⟩
      | cons next words =>
        obtain ⟨gap, covered, rest, rfl, hgap, hblank, hcovers, rfl⟩ :=
          coverAfterGap?_covers (List.cons_ne_nil next words) hm
        exact ⟨word ++ (gap ++ covered), rest, by simp, .more hgap hblank hcovers, by simp⟩
    · cases h

theorem spellingLength?_covers (h : spellingLength? spelling t = some n) : ∃ covered rest,
    t = covered ++ rest ∧ Covers (Text.split ' ' spelling) covered ∧ covered.length = n :=
  coverLength?_covers (Text.split_ne_nil ' ' spelling) (Option.filter_eq_some_iff.mp h).1

theorem Covers.ne_nil (h : Covers words covered) (hwords : words ≠ [[]]) : covered ≠ [] := by
  cases h with
  | last word =>
    rintro rfl
    exact hwords rfl
  | more hgap _ _ => simp [hgap]

theorem Covers.mem {c : Char} (h : Covers words covered) (hc : c ∈ covered) :
    Text.isSpace c = true ∨ ∃ word ∈ words, c ∈ word := by
  induction h with
  | last word => exact Or.inr ⟨word, List.mem_singleton_self word, hc⟩
  | more _ hblank _ ih =>
    rcases List.mem_append.mp hc with hc | hc
    · exact Or.inr ⟨_, List.mem_cons_self, hc⟩
    · rcases List.mem_append.mp hc with hc | hc
      · exact Or.inl (Text.isBlank_iff.mp hblank c hc)
      · exact (ih hc).imp_right fun ⟨word, hword, hc⟩ => ⟨word, List.mem_cons_of_mem _ hword, hc⟩

theorem isSpace_of_isIdentifierChar {c : Char} (h : isIdentifierChar c = true) :
    Text.isSpace c = false := by
  have hwithin {low high : UInt32} (hlow : 45 ≤ low.toNat) (hhigh : high.toNat ≤ 122)
      (hc : low ≤ c.val ∧ c.val ≤ high) : 45 ≤ c.toNat ∧ c.toNat ≤ 122 :=
    ⟨Nat.le_trans hlow hc.1, Nat.le_trans hc.2 hhigh⟩
  have hand {p q : Prop} [Decidable p] [Decidable q] (hpq : (p && q) = true) : p ∧ q :=
    (Bool.and_eq_true_iff.mp hpq).imp of_decide_eq_true of_decide_eq_true
  have hrange : 45 ≤ c.toNat ∧ c.toNat ≤ 122 := by
    rw [isIdentifierChar, Bool.or_eq_true, Bool.or_eq_true, decide_eq_true_eq, decide_eq_true_eq] at h
    rcases h with (h | rfl) | rfl
    · rcases Bool.or_eq_true_iff.mp h with h | hdigit
      · rcases Bool.or_eq_true_iff.mp h with hupper | hlower
        · exact hwithin (by decide) (by decide) (of_decide_eq_true hupper)
        · exact hwithin (by decide) (by decide) (hand hlower)
      · exact hwithin (by decide) (by decide) (hand hdigit)
    · decide
    · decide
  have hvisible : ∀ n < 123, 45 ≤ n → Text.inRanges Text.whiteSpace n = false := by decide
  exact hvisible c.toNat (Nat.lt_succ_of_le hrange.2) hrange.1

/-- A word of a spelling that can be told from what surrounds it: neither white space nor `d` is in it. -/
def Keyword (d : Char) (word : Text) : Prop :=
  word ≠ [] ∧ ∀ c ∈ word, Text.isSpace c = false ∧ c ≠ d

def Table.Keywords (table : Table) (d : Char) : Prop :=
  ∀ r ∈ table, ∀ spelling ∈ r.spellings, ∀ word ∈ Text.split ' ' spelling, Keyword d word

-- The characters of the word are gone through here, not all characters there are.
instance (d : Char) (word : Text) : Decidable (Keyword d word) :=
  @instDecidableAnd _ _ _ (List.decidableBAll _ word)

instance (table : Table) (d : Char) : Decidable (table.Keywords d) :=
  inferInstanceAs (Decidable (∀ r ∈ table, _))

section Ended

variable {d : Char} {v w y : Text}

theorem isPrefixOf_ended (hword : Keyword d word) (hw : Text.isBlank w = true) :
    word.isPrefixOf (v ++ (w ++ d :: y)) = word.isPrefixOf v := by
  rw [Bool.eq_iff_iff, List.isPrefixOf_iff_prefix, List.isPrefixOf_iff_prefix]
  constructor
  · intro hprefix
    rcases List.prefix_or_prefix_of_prefix hprefix (List.prefix_append v _) with hin | ⟨z, rfl⟩
    · exact hin
    · cases z with
      | nil => exact ⟨[], by simp⟩
      | cons c z =>
        -- The word would go on with the first character behind `v`.
        have hstart : c :: z <+: w ++ d :: y := (List.prefix_append_right_inj v).mp hprefix
        obtain ⟨hspace, hd⟩ := hword.2 c (by simp)
        cases w with
        | nil => exact absurd (List.cons_prefix_cons.mp hstart).1 hd
        | cons e w =>
          have he := (List.cons_prefix_cons.mp hstart).1
          rw [he, Text.isBlank_iff.mp hw e List.mem_cons_self] at hspace
          cases hspace
  · exact fun hprefix => hprefix.trans (List.prefix_append v _)

theorem not_gap_ended (hword : Keyword d word) (hw : Text.isBlank w = true) (hd : Text.isSpace d = false)
    {gap rest : Text} (hgap : Text.isBlank gap = true) : w ++ d :: y ≠ gap ++ (word ++ rest) := by
  intro hsame
  obtain ⟨c, word, rfl⟩ := List.exists_cons_of_ne_nil hword.1
  obtain ⟨hspace, hne⟩ := hword.2 c List.mem_cons_self
  have htrimmed := congrArg Text.trimStart hsame
  rw [Text.trimStart_blank_append hw, Text.trimStart_blank_append hgap, Text.trimStart, Text.trimStart,
    List.cons_append, List.dropWhile_cons_of_neg (by simp [hd]),
    List.dropWhile_cons_of_neg (by simp [hspace])] at htrimmed
  exact hne (List.cons.inj htrimmed).1.symm

theorem shortestGap?_ended (hword : Keyword d word) (hw : Text.isBlank w = true)
    (hd : Text.isSpace d = false) : shortestGap? word (v ++ (w ++ d :: y)) = shortestGap? word v := by
  induction v with
  | nil =>
    refine Option.eq_none_iff_forall_ne_some.mpr fun n hn => ?_
    obtain ⟨gap, rest, hsame, -, hgap, -⟩ := shortestGap?_covers hn
    exact not_gap_ended hword hw hd hgap hsame
  | cons c v ih => rw [List.cons_append, shortestGap?, shortestGap?, isPrefixOf_ended hword hw, ih]

theorem longestGap?_ended (hword : Keyword d word) (hw : Text.isBlank w = true)
    (hd : Text.isSpace d = false) : longestGap? word (v ++ (w ++ d :: y)) = longestGap? word v := by
  induction v with
  | nil =>
    refine Option.eq_none_iff_forall_ne_some.mpr fun n hn => ?_
    obtain ⟨gap, rest, hsame, -, hgap, -⟩ := longestGap?_covers hn
    exact not_gap_ended hword hw hd hgap hsame
  | cons c v ih => rw [List.cons_append, longestGap?, longestGap?, isPrefixOf_ended hword hw, ih]

theorem coverAfterGap?_ended (hwords : ∀ word ∈ words, Keyword d word) (hw : Text.isBlank w = true)
    (hd : Text.isSpace d = false) :
    coverAfterGap? words (v ++ (w ++ d :: y)) = coverAfterGap? words v := by
  induction words generalizing v with
  | nil => rfl
  | cons word words ih =>
    obtain ⟨hword, hothers⟩ := List.forall_mem_cons.mp hwords
    cases words with
    | nil => rw [coverAfterGap?, coverAfterGap?, longestGap?_ended hword hw hd]
    | cons next words =>
      rw [coverAfterGap?, coverAfterGap?, shortestGap?_ended hword hw hd]
      · cases hgap : shortestGap? word v with
        | none => rfl
        | some gap =>
          obtain ⟨space, rest, rfl, -, -, rfl⟩ := shortestGap?_covers hgap
          have hdrop (z : Text) :
              (space ++ (word ++ z)).drop (space.length + word.length) = z := by
            rw [← List.append_assoc, ← List.length_append, List.drop_left]
          have hlater := ih hothers (v := rest)
          rw [List.append_assoc, List.append_assoc]
          simp only [hdrop, hlater]
      · simp
      · simp

theorem coverLength?_ended (hwords : ∀ word ∈ words, Keyword d word) (hw : Text.isBlank w = true)
    (hd : Text.isSpace d = false) : coverLength? words (v ++ (w ++ d :: y)) = coverLength? words v := by
  cases words with
  | nil => rfl
  | cons word words =>
    obtain ⟨hword, hothers⟩ := List.forall_mem_cons.mp hwords
    rw [coverLength?, coverLength?, isPrefixOf_ended hword hw]
    split
    · rename_i hprefix
      obtain ⟨rest, rfl⟩ := List.isPrefixOf_iff_prefix.mp hprefix
      rw [List.append_assoc, List.drop_left, List.drop_left, coverAfterGap?_ended hothers hw hd]
    · rfl

theorem cutsIdentifier_ended {x : Text} (hx : x.head?.any isIdentifierChar = false) (hn : n ≤ v.length) :
    cutsIdentifier (v ++ x) n = cutsIdentifier v n := by
  rw [cutsIdentifier, cutsIdentifier, List.take_append_of_le_length hn, List.drop_append_of_le_length hn]
  cases hrest : v.drop n with
  | nil => simp [hx]
  | cons c rest => rfl

variable (hw : Text.isBlank w = true) (hd : Text.isSpace d = false) (hid : isIdentifierChar d = false)

include hw hid in
theorem head?_ended : (w ++ d :: y).head?.any isIdentifierChar = false := by
  cases w with
  | nil => simpa using hid
  | cons c w =>
    have hc := Text.isBlank_iff.mp hw c List.mem_cons_self
    by_contra hident
    simp only [List.cons_append, List.head?_cons, Option.any_some, Bool.not_eq_false] at hident
    rw [isSpace_of_isIdentifierChar hident] at hc
    cases hc

include hw hd hid

theorem spellingLength?_ended (hwords : ∀ word ∈ Text.split ' ' spelling, Keyword d word) :
    spellingLength? spelling (v ++ (w ++ d :: y)) = spellingLength? spelling v := by
  rw [spellingLength?, spellingLength?, coverLength?_ended hwords hw hd]
  cases hcover : coverLength? (Text.split ' ' spelling) v with
  | none => rfl
  | some n =>
    obtain ⟨covered, rest, rfl, -, rfl⟩ := coverLength?_covers (Text.split_ne_nil ' ' spelling) hcover
    have hcuts := cutsIdentifier_ended (head?_ended (y := y) hw hid)
      (List.prefix_append covered rest).length_le
    rw [Option.filter_some, Option.filter_some, hcuts]

theorem matchLength?_ended
    (hr : ∀ spelling ∈ r.spellings, ∀ word ∈ Text.split ' ' spelling, Keyword d word) :
    r.matchLength? (v ++ (w ++ d :: y)) = r.matchLength? v := by
  rw [Rule.matchLength?, Rule.matchLength?]
  congr 1
  exact List.filterMap_congr fun spelling hs => spellingLength?_ended hw hd hid (hr spelling hs)

/-- A character in no word of the table ends every match before it. -/
theorem longestMatch?_ended (htable : table.Keywords d) :
    table.longestMatch? (v ++ (w ++ d :: y)) = table.longestMatch? v := by
  rw [Table.longestMatch?, Table.longestMatch?]
  refine List.foldl_ext _ _ _ fun best r hr => ?_
  unfold Table.better
  rw [matchLength?_ended hw hd hid (htable r hr)]

end Ended

theorem longestMatch?_le_length (h : table.longestMatch? t = some (kind, n)) : n ≤ t.length := by
  obtain ⟨r, -, -, hmatch⟩ := longestMatch?_rule h
  obtain ⟨spelling, -, hlength⟩ := matchLength?_spelling hmatch
  obtain ⟨covered, rest, rfl, -, rfl⟩ := spellingLength?_covers hlength
  exact (List.prefix_append covered rest).length_le

theorem longestMatch?_not_mem {d : Char} (hd : Text.isSpace d = false) (htable : table.Keywords d)
    (h : table.longestMatch? t = some (kind, n)) : d ∉ t.take n := by
  obtain ⟨r, hr, -, hmatch⟩ := longestMatch?_rule h
  obtain ⟨spelling, hs, hlength⟩ := matchLength?_spelling hmatch
  obtain ⟨covered, rest, rfl, hcovers, rfl⟩ := spellingLength?_covers hlength
  rw [List.take_left]
  intro hmem
  rcases hcovers.mem hmem with hspace | ⟨word, hword, hmem⟩
  · rw [hd] at hspace
    cases hspace
  · exact ((htable r hr spelling hs word hword).2 d hmem).2 rfl

end Promptline.Indent
