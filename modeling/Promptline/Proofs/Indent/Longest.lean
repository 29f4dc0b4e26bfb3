import Mathlib.Data.List.Induction
import Mathlib.Order.Bounds.Basic
import Promptline.Proofs.Indent.Matches
import Promptline.Proofs.Text.Offsets

set_option autoImplicit false

namespace Promptline.Indent

variable {table : Table} {r : Rule} {kind : Kind} {spelling t u v word covered gap : Text}
  {words : List Text} {m n : Nat}

def Begins (words : List Text) (t : Text) (n : Nat) : Prop :=
  ∃ covered, Covers words covered ∧ covered <+: t ∧ covered.length = n

def CutsWord (t : Text) (n : Nat) : Prop :=
  ∃ before c d after, t = before ++ c :: d :: after ∧ before.length + 1 = n ∧
    isIdentifierChar c = true ∧ isIdentifierChar d = true

def Matches (spelling t : Text) (n : Nat) : Prop :=
  IsGreatest {m | Begins (Text.split ' ' spelling) t m} n ∧ ¬ CutsWord t n

def greedyGap? (rest : Text → Option Nat) : Text → Option Nat
  | [] => none
  | c :: t =>
    if Text.isSpace c then ((greedyGap? rest t).or (rest t)).map (· + 1) else none

/-- Where a matcher with backtracking stops that looks for the words one after the other. -/
def greedyLength? : List Text → Text → Option Nat
  | [], _ => some 0
  | [word], t => if word.isPrefixOf t then some word.length else none
  | word :: next :: words, t =>
    if word.isPrefixOf t then
      (greedyGap? (greedyLength? (next :: words)) (t.drop word.length)).map (word.length + ·)
    else none

/-- What is found is in the set, and whatever is in the set is not longer than what is found. -/
theorem eq_some_iff_isGreatest {found : Option Nat} {lengths : Set Nat}
    (hsound : ∀ n, found = some n → n ∈ lengths)
    (hcomplete : ∀ m ∈ lengths, ∃ n, found = some n ∧ m ≤ n) :
    found = some n ↔ IsGreatest lengths n := by
  constructor
  · intro h
    refine ⟨hsound n h, fun m hm => ?_⟩
    obtain ⟨k, hk, hle⟩ := hcomplete m hm
    cases hk.symm.trans h
    exact hle
  · intro h
    obtain ⟨k, hk, hle⟩ := hcomplete n h.1
    rw [hk, Nat.le_antisymm (h.2 (hsound k hk)) hle]

/-- A word that is not blank stands at one place of a run of white space only. -/
theorem gap_unique (hword : Text.isBlank word = false) (hu : Text.isBlank u = true)
    (hv : Text.isBlank v = true) {s s' : Text} (h : u ++ (word ++ s) = v ++ (word ++ s')) :
    u = v ∧ s = s' := by
  have htrimmed := congrArg Text.trimStart h
  rw [Text.trimStart_blank_append hu, Text.trimStart_blank_append hv, Text.trimStart_append hword,
    Text.trimStart_append hword] at htrimmed
  obtain rfl := List.append_cancel_left htrimmed
  exact ⟨List.append_cancel_right h, rfl⟩

/-- Words that can be found both at the start of a run of white space and further on in it are found
further on up to an end that is not nearer. -/
theorem Covers.further {c d : Text} (hc : Covers words c) (hu : Text.isBlank u = true)
    (hbegins : c <+: u ++ t) (hd : Covers words d) (hbegins' : d <+: t) :
    ∃ e, Covers words e ∧ e <+: t ∧ c.length ≤ u.length + e.length := by
  induction hc generalizing u t d with
  | last word =>
    cases hd with
    | last => exact ⟨word, .last word, hbegins', Nat.le_add_left _ _⟩
    | more _ _ hnone => cases hnone
  | @more word gap covered words hgap hblank hcovers ih =>
    cases hd with
    | last => cases hcovers
    | @more _ gap' covered' _ hgap' hblank' hcovers' =>
      obtain ⟨rest, hrest⟩ := hbegins
      obtain ⟨rest', rfl⟩ := hbegins'
      simp only [List.append_assoc] at hrest ⊢
      cases hword : Text.isBlank word with
      | false =>
        obtain ⟨rfl, -⟩ := gap_unique (u := []) hword rfl hu hrest
        exact ⟨_, .more hgap hblank hcovers, ⟨rest, by simpa using hrest⟩, by simp⟩
      | true =>
        -- From where the run before the other words ends sooner, `w` leads to where it ends later.
        have hmeet {w : Text} (hw : Text.isBlank w = true) (hwhole : u ++ word = word ++ gap ++ w)
            (hbehind : covered ++ rest = w ++ (gap' ++ (covered' ++ rest'))) :
            ∃ e, Covers (word :: words) e ∧ e <+: word ++ (gap' ++ (covered' ++ rest')) ∧
              (word ++ (gap ++ covered)).length ≤ u.length + e.length := by
          have hrun : Text.isBlank (w ++ gap') = true := Text.isBlank_append_iff.mpr ⟨hw, hblank'⟩
          obtain ⟨e, he, heprefix, hle⟩ := ih hrun ⟨rest, by rw [hbehind, List.append_assoc]⟩
            hcovers' (List.prefix_append covered' rest')
          refine ⟨word ++ (gap' ++ e), .more hgap' hblank' he, by simpa using heprefix, ?_⟩
          have hlength := congrArg List.length hwhole
          simp only [List.length_append] at hlength hle ⊢
          omega
        have hsplit : (word ++ gap) ++ (covered ++ rest) =
            (u ++ word) ++ (gap' ++ (covered' ++ rest')) := by simpa using hrest
        rcases List.append_eq_append_iff.mp hsplit with ⟨w, hwhole, hbehind⟩ | ⟨w, hwhole, hbehind⟩
        · have hall : Text.isBlank (u ++ word) = true := Text.isBlank_append_iff.mpr ⟨hu, hword⟩
          rw [hwhole] at hall
          exact hmeet (Text.isBlank_append_iff.mp hall).2 hwhole hbehind
        · have hall : Text.isBlank (word ++ gap) = true := Text.isBlank_append_iff.mpr ⟨hword, hblank⟩
          rw [hwhole] at hall
          cases w with
          | nil => exact hmeet (w := []) rfl (by simpa using hwhole.symm) hbehind.symm
          | cons c w =>
            refine ⟨word ++ (c :: w ++ covered),
              .more (List.cons_ne_nil c w) (Text.isBlank_append_iff.mp hall).2 hcovers, ⟨rest, ?_⟩, ?_⟩
            · rw [hbehind]
              simp
            · have hlength := congrArg List.length hwhole
              simp only [List.length_append] at hlength ⊢
              omega

theorem greedyGap?_sound {rest : Text → Option Nat} (h : greedyGap? rest t = some n) :
    ∃ gap behind m, t = gap ++ behind ∧ gap ≠ [] ∧ Text.isBlank gap = true ∧ rest behind = some m ∧
      gap.length + m = n := by
  induction t generalizing n with
  | nil => cases h
  | cons c t ih =>
    rw [greedyGap?] at h
    split at h
    · rename_i hc
      obtain ⟨k, hk, rfl⟩ := Option.map_eq_some_iff.mp h
      rcases Option.or_eq_some_iff.mp hk with hlonger | ⟨-, hshortest⟩
      · obtain ⟨gap, behind, m, rfl, hgap, hblank, hm, rfl⟩ := ih hlonger
        refine ⟨c :: gap, behind, m, rfl, List.cons_ne_nil c gap, ?_, hm, by simp; omega⟩
        rw [Text.isBlank, List.all_cons, hc]
        exact hblank
      · exact ⟨[c], t, k, rfl, List.cons_ne_nil c [], by simp [Text.isBlank, hc], hshortest,
          Nat.add_comm 1 k⟩
    · cases h

/-- Where `rest` can be found behind a run of white space, it is found behind one at least as long. -/
theorem greedyGap?_complete {rest : Text → Option Nat} (hgap : gap ≠ [])
    (hblank : Text.isBlank gap = true) (h : rest t = some m) :
    ∃ w behind k, t = w ++ behind ∧ Text.isBlank w = true ∧ rest behind = some k ∧
      greedyGap? rest (gap ++ t) = some (gap.length + (w.length + k)) := by
  induction gap with
  | nil => exact absurd rfl hgap
  | cons c gap ih =>
    rw [Text.isBlank, List.all_cons, Bool.and_eq_true] at hblank
    obtain ⟨hc, hblank⟩ := hblank
    rw [List.cons_append, greedyGap?, if_pos hc]
    cases gap with
    | nil =>
      cases hlonger : greedyGap? rest t with
      | none => exact ⟨[], t, m, rfl, rfl, h, by simp [hlonger, h, Nat.add_comm]⟩
      | some n =>
        obtain ⟨w, behind, k, rfl, -, hw, hk, rfl⟩ := greedyGap?_sound hlonger
        exact ⟨w, behind, k, rfl, hw, hk, by simp [hlonger, Nat.add_comm]⟩
    | cons d gap =>
      obtain ⟨w, behind, k, rfl, hw, hk, hfound⟩ := ih (List.cons_ne_nil d gap) hblank
      refine ⟨w, behind, k, rfl, hw, hk, ?_⟩
      rw [hfound, Option.some_or, Option.map_some, List.length_cons (a := c), Nat.add_right_comm]

theorem greedyLength?_sound (hwords : words ≠ []) (h : greedyLength? words t = some n) :
    Begins words t n := by
  induction words generalizing t n with
  | nil => exact absurd rfl hwords
  | cons word words ih =>
    cases words with
    | nil =>
      rw [greedyLength?] at h
      split at h
      · rename_i hword
        cases h
        exact ⟨word, .last word, List.isPrefixOf_iff_prefix.mp hword, rfl⟩
      · cases h
    | cons next words =>
      rw [greedyLength?] at h
      split at h
      · rename_i hword
        obtain ⟨rest, rfl⟩ := List.isPrefixOf_iff_prefix.mp hword
        rw [List.drop_left] at h
        obtain ⟨k, hk, rfl⟩ := Option.map_eq_some_iff.mp h
        obtain ⟨gap, behind, m, rfl, hgap, hblank, hm, rfl⟩ := greedyGap?_sound hk
        obtain ⟨covered, hcovers, hbegins, rfl⟩ := ih (List.cons_ne_nil next words) hm
        refine ⟨word ++ (gap ++ covered), .more hgap hblank hcovers, ?_, by simp⟩
        simpa using hbegins
      · cases h

theorem greedyLength?_complete (hc : Covers words covered) (hbegins : covered <+: t) :
    ∃ n, greedyLength? words t = some n ∧ covered.length ≤ n := by
  induction words generalizing covered t with
  | nil => cases hc
  | cons word words ih =>
    cases hc with
    | last => exact ⟨_, by rw [greedyLength?, if_pos (List.isPrefixOf_iff_prefix.mpr hbegins)], le_rfl⟩
    | @more _ gap covered _ hgap hblank hcovers =>
      obtain ⟨rest, rfl⟩ := hbegins
      cases words with
      | nil => cases hcovers
      | cons next words =>
        obtain ⟨m, hm, -⟩ := ih hcovers (List.prefix_append covered rest)
        obtain ⟨w, behind, k, hrest, hw, hk, hfound⟩ := greedyGap?_complete hgap hblank hm
        obtain ⟨d, hd, hdprefix, -⟩ := greedyLength?_sound (List.cons_ne_nil next words) hk
        obtain ⟨e, he, heprefix, hle⟩ := hcovers.further hw ⟨rest, hrest⟩ hd hdprefix
        obtain ⟨k', hk', hle'⟩ := ih he heprefix
        cases hk.symm.trans hk'
        refine ⟨word.length + (gap.length + (w.length + k)), ?_, ?_⟩
        · rw [greedyLength?, if_pos (List.isPrefixOf_iff_prefix.mpr (by simp)), List.append_assoc,
            List.drop_left, List.append_assoc, hfound]
          rfl
        · simp only [List.length_append]
          omega

/-- Longest runs first lead to the longest match. -/
theorem greedyLength?_eq_some_iff (hwords : words ≠ []) :
    greedyLength? words t = some n ↔ IsGreatest {m | Begins words t m} n :=
  eq_some_iff_isGreatest (fun _ => greedyLength?_sound hwords)
    fun _ ⟨_, hcovers, hbegins, hlength⟩ => hlength ▸ greedyLength?_complete hcovers hbegins

theorem shortestGap?_complete (hgap : gap ≠ []) (hblank : Text.isBlank gap = true)
    (hbegins : gap ++ word <+: t) : ∃ n, shortestGap? word t = some n ∧ n ≤ gap.length := by
  induction gap generalizing t with
  | nil => exact absurd rfl hgap
  | cons c gap ih =>
    obtain ⟨rest, rfl⟩ := hbegins
    rw [Text.isBlank, List.all_cons, Bool.and_eq_true] at hblank
    obtain ⟨hc, hblank⟩ := hblank
    rw [List.cons_append, List.cons_append, shortestGap?, hc]
    simp only [Bool.not_true, Bool.false_eq_true, if_false]
    split
    · exact ⟨1, rfl, by simp⟩
    · rename_i hword
      cases gap with
      | nil => exact absurd (List.isPrefixOf_iff_prefix.mpr (List.prefix_append word rest)) hword
      | cons d gap =>
        obtain ⟨n, hn, hle⟩ := ih (List.cons_ne_nil d gap) hblank (List.prefix_append _ rest)
        exact ⟨n + 1, by rw [hn]; rfl, Nat.succ_le_succ hle⟩

theorem longestGap?_complete (hgap : gap ≠ []) (hblank : Text.isBlank gap = true)
    (hbegins : gap ++ word <+: t) : ∃ n, longestGap? word t = some n ∧ gap.length ≤ n := by
  induction gap generalizing t with
  | nil => exact absurd rfl hgap
  | cons c gap ih =>
    obtain ⟨rest, rfl⟩ := hbegins
    rw [Text.isBlank, List.all_cons, Bool.and_eq_true] at hblank
    obtain ⟨hc, hblank⟩ := hblank
    rw [List.cons_append, List.cons_append, longestGap?, hc]
    simp only [Bool.not_true, Bool.false_eq_true, if_false]
    cases gap with
    | nil =>
      split
      · exact ⟨_, rfl, by simp⟩
      · exact ⟨1, if_pos (List.isPrefixOf_iff_prefix.mpr (List.prefix_append word rest)), by simp⟩
    | cons d gap =>
      obtain ⟨n, hn, hle⟩ := ih (List.cons_ne_nil d gap) hblank (List.prefix_append _ rest)
      rw [hn]
      exact ⟨n + 1, rfl, Nat.succ_le_succ hle⟩

/-- A word that is found sooner leaves the white space behind it to what follows. -/
theorem exists_gap_behind {first gap' behind : Text} (hblank : Text.isBlank gap = true)
    (hgap' : gap' ≠ []) (hblank' : Text.isBlank gap' = true) (hfirst : Text.isBlank first = true)
    (hle : first.length ≤ gap.length)
    (hwhole : gap ++ (word ++ (gap' ++ u)) = first ++ (word ++ behind)) :
    ∃ w, w ≠ [] ∧ Text.isBlank w = true ∧ behind = w ++ u ∧
      gap.length + gap'.length = first.length + w.length := by
  cases hword : Text.isBlank word with
  | false =>
    obtain ⟨rfl, rfl⟩ := gap_unique hword hblank hfirst hwhole
    exact ⟨gap', hgap', hblank', rfl, rfl⟩
  | true =>
    have hpos := List.length_pos_iff.mpr hgap'
    have hsplit : (gap ++ word ++ gap') ++ u = (first ++ word) ++ behind := by simpa using hwhole
    rcases List.append_eq_append_iff.mp hsplit with ⟨w, hrun, -⟩ | ⟨w, hrun, hbehind⟩
    · have hlength := congrArg List.length hrun
      simp only [List.length_append] at hlength
      omega
    · have hall : Text.isBlank (gap ++ word ++ gap') = true := by
        simp [Text.isBlank_append_iff, hblank, hword, hblank']
      have hlength := congrArg List.length hrun
      rw [hrun] at hall
      simp only [List.length_append] at hlength
      refine ⟨w, ?_, (Text.isBlank_append_iff.mp hall).2, hbehind, by omega⟩
      rintro rfl
      simp only [List.length_nil] at hlength
      omega

/-- The shortest run before each word but the last gets as far as any. -/
theorem coverAfterGap?_complete (hc : Covers words covered) (hgap : gap ≠ [])
    (hblank : Text.isBlank gap = true) (hbegins : gap ++ covered <+: t) :
    ∃ n, coverAfterGap? words t = some n ∧ gap.length + covered.length ≤ n := by
  induction hc generalizing gap t with
  | last word =>
    obtain ⟨n, hn, hle⟩ := longestGap?_complete hgap hblank hbegins
    exact ⟨n + word.length, by rw [coverAfterGap?, hn]; rfl, Nat.add_le_add_right hle _⟩
  | @more word gap' covered words hgap' hblank' hcovers ih =>
    obtain ⟨rest, rfl⟩ := hbegins
    cases words with
    | nil => cases hcovers
    | cons next words =>
      have hassoc : gap ++ (word ++ (gap' ++ covered)) ++ rest =
          gap ++ (word ++ (gap' ++ (covered ++ rest))) := by simp
      obtain ⟨k, hk, hle⟩ := shortestGap?_complete hgap hblank
        ((List.prefix_append_right_inj gap).mpr (List.prefix_append word (gap' ++ (covered ++ rest))))
      obtain ⟨first, behind, hwhole, -, hfirst, rfl⟩ := shortestGap?_covers hk
      obtain ⟨w, hw, hwblank, rfl, hlength⟩ :=
        exists_gap_behind hblank hgap' hblank' hfirst hle hwhole
      obtain ⟨n, hn, hle'⟩ := ih hw hwblank ⟨rest, by rw [List.append_assoc]⟩
      refine ⟨first.length + word.length + n, ?_, ?_⟩
      · have hdrop : (first ++ (word ++ (w ++ (covered ++ rest)))).drop (first.length + word.length) =
            w ++ (covered ++ rest) := by
          rw [← List.append_assoc, ← List.length_append, List.drop_left]
        rw [hwhole] at hk hassoc
        rw [hassoc, coverAfterGap?, hk]
        · simp only [hdrop, hn, Option.map_some]
        · simp
      · simp only [List.length_append]
        omega

theorem coverLength?_complete (hc : Covers words covered) (hbegins : covered <+: t) :
    ∃ n, coverLength? words t = some n ∧ covered.length ≤ n := by
  obtain ⟨rest, rfl⟩ := hbegins
  cases hc with
  | last =>
    refine ⟨covered.length, ?_, le_rfl⟩
    rw [coverLength?, if_pos (List.isPrefixOf_iff_prefix.mpr (List.prefix_append covered rest))]
    rfl
  | @more word gap covered words hgap hblank hcovers =>
    obtain ⟨n, hn, hle⟩ := coverAfterGap?_complete hcovers hgap hblank
      (List.prefix_append (gap ++ covered) rest)
    refine ⟨word.length + n, ?_, ?_⟩
    · rw [List.append_assoc, coverLength?,
        if_pos (List.isPrefixOf_iff_prefix.mpr (List.prefix_append word _)), List.drop_left, hn]
      rfl
    · simp only [List.length_append]
      omega

theorem coverLength?_eq_some_iff (hwords : words ≠ []) :
    coverLength? words t = some n ↔ IsGreatest {m | Begins words t m} n := by
  refine eq_some_iff_isGreatest (fun n h => ?_)
    fun _ ⟨_, hcovers, hbegins, hlength⟩ => hlength ▸ coverLength?_complete hcovers hbegins
  obtain ⟨covered, rest, rfl, hcovers, hlength⟩ := coverLength?_covers hwords h
  exact ⟨covered, hcovers, List.prefix_append covered rest, hlength⟩

/-- The words are matched as far as a matcher gets that tries the longest runs first. -/
theorem coverLength?_eq_greedyLength? (hwords : words ≠ []) (t : Text) :
    coverLength? words t = greedyLength? words t :=
  Option.ext fun _ => (coverLength?_eq_some_iff hwords).trans (greedyLength?_eq_some_iff hwords).symm

theorem cutsIdentifier_iff : cutsIdentifier t n = true ↔ CutsWord t n := by
  rw [cutsIdentifier, Bool.and_eq_true, Option.any_eq_true, Option.any_eq_true]
  constructor
  · rintro ⟨⟨c, hlast, hc⟩, d, hfirst, hd⟩
    obtain ⟨before, hbefore⟩ := List.getLast?_eq_some_iff.mp hlast
    obtain ⟨after, hafter⟩ := List.head?_eq_some_iff.mp hfirst
    refine ⟨before, c, d, after, ?_, ?_, hc, hd⟩
    · rw [← List.take_append_drop n t, hbefore, hafter]
      simp
    · have hlength := congrArg List.length hbefore
      have hlength' := congrArg List.length hafter
      simp only [List.length_take, List.length_drop, List.length_append, List.length_cons,
        List.length_nil] at hlength hlength'
      omega
  · rintro ⟨before, c, d, after, rfl, rfl, hc, hd⟩
    have hsplit : before ++ c :: d :: after = (before ++ [c]) ++ d :: after := by simp
    have hlength : before.length + 1 = (before ++ [c]).length := by simp
    rw [hsplit, hlength, List.take_left, List.drop_left]
    exact ⟨⟨c, by simp, hc⟩, d, rfl, hd⟩

theorem spellingLength?_eq_some_iff : spellingLength? spelling t = some n ↔ Matches spelling t n := by
  rw [spellingLength?, Option.filter_eq_some_iff,
    coverLength?_eq_some_iff (Text.split_ne_nil ' ' spelling), Matches, Bool.not_eq_true',
    ← Bool.not_eq_true, cutsIdentifier_iff]

def Rule.Attains (r : Rule) (t : Text) (n : Nat) : Prop := ∃ spelling ∈ r.spellings, Matches spelling t n

structure Table.FirstLongest (table : Table) (t : Text) (kind : Kind) (n : Nat) : Prop where
  longest : IsGreatest {m | ∃ r ∈ table, r.Attains t m} n
  first : ∃ before r after, table = before ++ r :: after ∧ r.kind = kind ∧ r.Attains t n ∧
    ∀ q ∈ before, ¬ q.Attains t n

theorem matchLength?_eq_some_iff : r.matchLength? t = some n ↔ IsGreatest {m | r.Attains t m} n := by
  have hmem (m : Nat) : m ∈ r.spellings.filterMap (spellingLength? · t) ↔ r.Attains t m := by
    simp only [List.mem_filterMap, spellingLength?_eq_some_iff, Rule.Attains]
  rw [Rule.matchLength?, List.max?_eq_some_iff]
  simp only [hmem]
  rfl

theorem matchLength?_eq_none_iff : r.matchLength? t = none ↔ ∀ n, ¬ r.Attains t n := by
  constructor
  · rintro h n ⟨spelling, hs, hn⟩
    have hsome := matchLength?_isSome hs (spellingLength?_eq_some_iff.mpr hn)
    rw [h] at hsome
    cases hsome
  · exact fun h => Option.eq_none_iff_forall_ne_some.mpr fun n hn => h n (matchLength?_eq_some_iff.mp hn).1

namespace Table.FirstLongest

variable {kind' : Kind} {n' : Nat}

theorem skip (h : table.FirstLongest t kind n) (hr : ∀ m, r.Attains t m → m ≤ n) :
    Table.FirstLongest (table ++ [r]) t kind n := by
  obtain ⟨⟨⟨q, hq, hn⟩, hle⟩, before, r', after, rfl, hkind, hattains, hbefore⟩ := h
  refine ⟨⟨⟨q, List.mem_append_left _ hq, hn⟩, ?_⟩,
    before, r', after ++ [r], by simp, hkind, hattains, hbefore⟩
  rintro m ⟨q', hq', hm⟩
  rcases List.mem_append.mp hq' with hq' | hq'
  · exact hle ⟨q', hq', hm⟩
  · rw [List.mem_singleton.mp hq'] at hm
    exact hr m hm

theorem take (htable : ∀ q ∈ table, ∀ m, q.Attains t m → m < n)
    (hr : IsGreatest {m | r.Attains t m} n) : Table.FirstLongest (table ++ [r]) t r.kind n := by
  refine ⟨⟨⟨r, by simp, hr.1⟩, ?_⟩, table, r, [], rfl, rfl, hr.1, fun q hq hn => ?_⟩
  · rintro m ⟨q, hq, hm⟩
    rcases List.mem_append.mp hq with hq | hq
    · exact Nat.le_of_lt (htable q hq m hm)
    · rw [List.mem_singleton.mp hq] at hm
      exact hr.2 hm
  · exact Nat.lt_irrefl n (htable q hq n hn)

theorem unique (h : table.FirstLongest t kind n) (h' : table.FirstLongest t kind' n') :
    kind = kind' ∧ n = n' := by
  classical
  obtain rfl := h.longest.unique h'.longest
  have hfind {k : Kind} (hk : table.FirstLongest t k n) :
      (table.find? fun q => decide (q.Attains t n)).map Rule.kind = some k := by
    obtain ⟨before, r, after, htable, rfl, hr, hbefore⟩ := hk.first
    have hfirst : (table.find? fun q => decide (q.Attains t n)) = some r :=
      List.find?_eq_some_iff_append.mpr ⟨by simpa using hr, before, after, htable, by simpa using hbefore⟩
    rw [hfirst, Option.map_some]
  exact ⟨Option.some.inj ((hfind h).symm.trans (hfind h')), rfl⟩

end Table.FirstLongest

theorem longestMatch?_cases (table : Table) (t : Text) :
    (∃ kind n, table.longestMatch? t = some (kind, n) ∧ table.FirstLongest t kind n) ∨
      table.longestMatch? t = none ∧ ∀ r ∈ table, ∀ n, ¬ r.Attains t n := by
  induction table using List.reverseRecOn with
  | nil => exact Or.inr ⟨rfl, List.forall_mem_nil _⟩
  | append_singleton table r ih =>
    have hstep : Table.longestMatch? (table ++ [r]) t = Table.better t (Table.longestMatch? table t) r := by
      rw [Table.longestMatch?, List.foldl_append]
      rfl
    cases hr : r.matchLength? t with
    | none =>
      have hnone := matchLength?_eq_none_iff.mp hr
      have hkept : Table.longestMatch? (table ++ [r]) t = Table.longestMatch? table t := by
        simp only [hstep, Table.better, hr]
      rw [hkept]
      rcases ih with ⟨kind, n, hbest, hlongest⟩ | ⟨hbest, hall⟩
      · exact Or.inl ⟨kind, n, hbest, hlongest.skip fun m hm => absurd hm (hnone m)⟩
      · refine Or.inr ⟨hbest, List.forall_mem_append.mpr ⟨hall, ?_⟩⟩
        simpa using hnone
    | some n =>
      have hgreatest := matchLength?_eq_some_iff.mp hr
      left
      rcases ih with ⟨kind, m, hbest, hlongest⟩ | ⟨hbest, hall⟩
      · simp only [hbest, Table.better, hr] at hstep
        split at hstep
        · rename_i hle
          exact ⟨kind, m, hstep, hlongest.skip fun k hk => Nat.le_trans (hgreatest.2 hk) hle⟩
        · rename_i hlt
          refine ⟨r.kind, n, hstep, .take (fun q hq k hk => ?_) hgreatest⟩
          exact Nat.lt_of_le_of_lt (hlongest.longest.2 ⟨q, hq, hk⟩) (Nat.lt_of_not_le hlt)
      · simp only [hbest, Table.better, hr] at hstep
        exact ⟨r.kind, n, hstep, .take (fun q hq k hk => absurd hk (hall q hq k)) hgreatest⟩

/-- Of two beginnings of a text the one with more characters has more bytes. -/
theorem bytes_take_strictMonoOn (t : Text) :
    StrictMonoOn (fun n => Text.bytes (t.take n)) {n | n ≤ t.length} := by
  intro m _ n hn hlt
  obtain ⟨k, rfl⟩ := Nat.exists_eq_add_of_lt hlt
  have hmore : (t.drop m).take (k + 1) ≠ [] := by
    have hlength : 0 < ((t.drop m).take (k + 1)).length := by
      rw [List.length_take, List.length_drop]
      rw [Set.mem_ofPred_eq] at hn
      omega
    exact List.length_pos_iff.mp hlength
  dsimp only
  rw [Nat.add_assoc, List.take_add, Text.bytes_append]
  exact Nat.lt_add_of_pos_right (Text.bytes_pos hmore)

/-- A table matches as much of a text as the longest match of any spelling, and its kind is that of the
first rule with such a spelling; there is no match where no spelling has one. The words of a spelling are
matched as far as a matcher goes that takes the longest runs of white space first, and what is longest in
characters is longest in bytes. -/
theorem longestMatch?_iff (table : Table) (t : Text) :
    (∀ kind n, table.longestMatch? t = some (kind, n) ↔ table.FirstLongest t kind n) ∧
      (table.longestMatch? t = none ↔
        ∀ r ∈ table, ∀ spelling ∈ r.spellings, ∀ n, ¬ Matches spelling t n) ∧
      (∀ r ∈ table, ∀ spelling ∈ r.spellings, spellingLength? spelling t =
        (greedyLength? (Text.split ' ' spelling) t).filter fun n => !cutsIdentifier t n) ∧
      StrictMonoOn (fun n => Text.bytes (t.take n)) {n | n ≤ t.length} := by
  refine ⟨fun kind n => ⟨fun h => ?_, fun h => ?_⟩, ⟨fun h => ?_, fun h => ?_⟩,
    fun r _ spelling _ => ?_, bytes_take_strictMonoOn t⟩
  · obtain ⟨kind', n', hmatch, hlongest⟩ | ⟨hnone, -⟩ := longestMatch?_cases table t
    · cases hmatch.symm.trans h
      exact hlongest
    · cases hnone.symm.trans h
  · obtain ⟨kind', n', hmatch, hlongest⟩ | ⟨-, hall⟩ := longestMatch?_cases table t
    · obtain ⟨rfl, rfl⟩ := h.unique hlongest
      exact hmatch
    · obtain ⟨r, hr, hn⟩ := h.longest.1
      exact absurd hn (hall r hr n)
  · obtain ⟨kind, n, hmatch, -⟩ | ⟨-, hall⟩ := longestMatch?_cases table t
    · cases hmatch.symm.trans h
    · exact fun r hr spelling hs n hn => hall r hr n ⟨spelling, hs, hn⟩
  · obtain ⟨kind, n, -, hlongest⟩ | ⟨hnone, -⟩ := longestMatch?_cases table t
    · obtain ⟨r, hr, spelling, hs, hn⟩ := hlongest.longest.1
      exact absurd hn (h r hr spelling hs n)
    · exact hnone
  · rw [spellingLength?, coverLength?_eq_greedyLength? (Text.split_ne_nil ' ' spelling)]

/-- The empty word between two spaces wants a run of white space on either side. -/
example :
    let table : Table := [⟨.openSingle, ["a  b".toList]⟩]
    table.longestMatch? "a \t\tb".toList = some (.openSingle, 5) ∧
      table.longestMatch? "a b".toList = none := by
  decide

end Promptline.Indent
