import Promptline.Indent.Scan
import Promptline.Proofs.Indent.Matches

set_option autoImplicit false

namespace Promptline.Indent

variable {table : Table} {t rest spelling : Text} {n : Nat}

theorem spellingLength?_pos (hs : spelling ≠ []) (h : spellingLength? spelling t = some n) :
    0 < n := by
  obtain ⟨covered, rest, rfl, hcovers, rfl⟩ := spellingLength?_covers h
  refine List.length_pos_iff.mpr (hcovers.ne_nil fun hwords => hs ?_)
  rw [← Text.intercalate_split ' ' spelling, hwords]
  rfl

def Table.Advances (table : Table) : Prop :=
  ∀ t kind n, table.longestMatch? t = some (kind, n) → 0 < n

theorem advances_of_spellings (h : ∀ r ∈ table, [] ∉ r.spellings) : table.Advances := by
  intro t kind n hmatch
  obtain ⟨r, hr, -, hlength⟩ := longestMatch?_rule hmatch
  obtain ⟨spelling, hs, hlength⟩ := matchLength?_spelling hlength
  refine spellingLength?_pos ?_ hlength
  rintro rfl
  exact h r hr hs

theorem advances_standard : Table.standard.Advances := advances_of_spellings (by decide)

theorem afterString_length_le (quote : Char) (t : Text) :
    (afterString quote t).length ≤ t.length := by
  fun_induction afterString quote t <;> grind

theorem afterOther_length_lt {c : Char} (t : Text) : (afterOther (c :: t)).length < (c :: t).length := by
  rw [List.length_cons, Nat.lt_succ_iff, afterOther]
  split
  · exact List.length_dropWhile_le _ _
  · split
    · exact afterString_length_le c t
    · exact Nat.le_refl _

theorem nextToken?_trimStart (table : Table) (t : Text) :
    nextToken? table (Text.trimStart t) = nextToken? table t := by
  rw [nextToken?, nextToken?, Text.trimStart_trimStart]

/-- A token takes up a character unless it is an empty match. -/
theorem nextToken?_rest {token : Token} (h : nextToken? table t = some (token, rest)) :
    rest.length < t.length ∨ rest = Text.trimStart t ∧ ∃ kind,
      table.longestMatch? (Text.trimStart t) = some (kind, 0) := by
  have htrimmed : (Text.trimStart t).length ≤ t.length := List.length_dropWhile_le _ _
  rw [nextToken?] at h
  split at h
  · cases h
  · rename_i c trimmed hcons
    rw [hcons] at htrimmed ⊢
    split at h
    · cases h
    · split at h
      · rename_i kind n hmatch
        cases h
        rcases Nat.eq_zero_or_pos n with rfl | hpos
        · exact Or.inr ⟨rfl, kind, hmatch⟩
        · left
          rw [List.length_drop]
          simp only [List.length_cons] at htrimmed ⊢
          omega
      · cases h
        exact Or.inl (Nat.lt_of_lt_of_le (afterOther_length_lt trimmed) htrimmed)

inductive Lexes (table : Table) : Text → List Token → Prop
  | stop {t : Text} : nextToken? table t = none → Lexes table t []
  | next {t rest : Text} {token : Token} {ts : List Token} :
      nextToken? table t = some (token, rest) → Lexes table rest ts → Lexes table t (token :: ts)

def Table.Finishes (table : Table) (line : Text) : Prop := ∃ ts, Lexes table (Text.trim line) ts

namespace Lexes

variable {ts : List Token}

theorem not_repeated (h : Lexes table t ts) (token : Token) :
    nextToken? table t ≠ some (token, t) := by
  induction h with
  | stop hnone => simp [hnone]
  | next hnext _ ih =>
    intro hsame
    rw [hnext] at hsame
    obtain ⟨rfl, rfl⟩ := Prod.mk.inj (Option.some.inj hsame)
    exact ih hnext

/-- An empty match would be read over and over again. -/
theorem length_lt {token : Token} (h : Lexes table rest ts)
    (hnext : nextToken? table t = some (token, rest)) : rest.length < t.length := by
  refine (nextToken?_rest hnext).resolve_right ?_
  rintro ⟨rfl, -⟩
  exact h.not_repeated token ((nextToken?_trimStart table t).trans hnext)

theorem length_le (h : Lexes table t ts) : ts.length ≤ t.length := by
  induction h with
  | stop _ => exact Nat.zero_le _
  | next hnext hrest ih => exact Nat.lt_of_le_of_lt ih (hrest.length_lt hnext)

theorem readTokens (h : Lexes table t ts) {limit : Nat} (hlimit : ts.length ≤ limit) :
    readTokens table limit t = ts := by
  induction h generalizing limit with
  | stop hnone => cases limit <;> simp [Indent.readTokens, hnone]
  | next hnext _ ih =>
    obtain ⟨limit, rfl⟩ := Nat.exists_eq_add_one_of_ne_zero (Nat.ne_zero_of_lt hlimit)
    simp only [Indent.readTokens, hnext]
    rw [ih (Nat.le_of_succ_le_succ hlimit)]

end Lexes

theorem Table.Advances.exists_lexes (h : table.Advances) (t : Text) : ∃ ts, Lexes table t ts := by
  generalize hn : t.length = n
  induction n using Nat.strongRecOn generalizing t with
  | ind n ih =>
    cases hnext : nextToken? table t with
    | none => exact ⟨[], .stop hnext⟩
    | some next =>
      obtain ⟨token, rest⟩ := next
      have hlt : rest.length < t.length := by
        refine (nextToken?_rest hnext).resolve_right ?_
        rintro ⟨-, kind, hempty⟩
        exact Nat.lt_irrefl 0 (h _ _ _ hempty)
      obtain ⟨ts, hts⟩ := ih rest.length (hn ▸ hlt) rest rfl
      exact ⟨token :: ts, .next hnext hts⟩

theorem Table.Advances.finishes (h : table.Advances) (line : Text) : table.Finishes line :=
  h.exists_lexes (Text.trim line)

theorem trim_length_le (t : Text) : (Text.trim t).length ≤ t.length := by
  rw [Text.trim, Text.trimEnd, List.length_reverse]
  have hend := List.length_dropWhile_le Text.isSpace (Text.trimStart t).reverse
  have hstart := List.length_dropWhile_le Text.isSpace t
  rw [List.length_reverse] at hend
  exact Nat.le_trans hend hstart

theorem tokens_eq_of_lexes {line : Text} {ts : List Token} (h : Lexes table (Text.trim line) ts) :
    tokens table line = ts :=
  h.readTokens (h.length_le.trans (trim_length_le line))

theorem tokens_congr {l l' : Text} (hl : table.Finishes l) (h : Text.trim l = Text.trim l') :
    tokens table l = tokens table l' := by
  obtain ⟨ts, hts⟩ := hl
  rw [tokens_eq_of_lexes hts, tokens_eq_of_lexes (h ▸ hts)]

theorem frameFor_congr {l l' : Text} (hl : table.Finishes l) (h : Text.trim l = Text.trim l')
    (frames : List Frame) : frameFor table frames l = frameFor table frames l' := by
  rw [frameFor, frameFor, tokens_congr hl h]

/-- Frames depend on the tokens of the lines only. -/
theorem scan_eq_foldl (table : Table) (ls : List Text) : scan table ls =
    (ls.map (tokens table)).foldl (fun frames ts => frames ++ [frameOf frames ts]) [] := by
  rw [List.foldl_map]
  rfl

theorem scan_congr {ls ls' : List Text} (hls : ∀ line ∈ ls, table.Finishes line)
    (h : ls.map Text.trim = ls'.map Text.trim) : scan table ls = scan table ls' := by
  have htokens : ls.map (tokens table) = ls'.map (tokens table) := by
    induction ls generalizing ls' with
    | nil => rw [List.map_eq_nil_iff.mp h.symm]
    | cons line rest ih =>
      obtain ⟨line', rest', rfl, hline, hrest⟩ := List.map_eq_cons_iff.mp h.symm
      obtain ⟨hfinishes, hothers⟩ := List.forall_mem_cons.mp hls
      rw [List.map_cons, List.map_cons, tokens_congr hfinishes hline.symm, ih hothers hrest.symm]
  rw [scan_eq_foldl, scan_eq_foldl, htokens]

end Promptline.Indent
