import Promptline.Proofs.Indent.Depth
import Promptline.Proofs.Indent.Offsets

set_option autoImplicit false

namespace Promptline.Indent

variable {table : Table} {frames : List Frame} {r : Rule} {t rest spelling line : Text} {n : Nat}

/-- What is left of a line, and what the tokens before it have come to. -/
structure Progress where
  rest : Text
  nesting : Nesting
  kind : Option Kind
  /-- The depth of a line whose first token is a rule. -/
  depth : Option Int
  atStart : Bool

namespace Progress

variable {p q : Progress}

def start (frames : List Frame) (line : Text) : Progress :=
  ⟨Text.trim line, ⟨inheritedLevel frames, []⟩, none, none, true⟩

def count (frames : List Frame) (p : Progress) (rest : Text) : Token → Progress
  | .other => { p with rest, atStart := false }
  | .rule kind =>
    let nesting := p.nesting.apply frames kind
    { rest
      nesting
      kind := some (p.kind.getD kind)
      depth := if p.atStart then some (nesting.lineDepth (inheritedLevel frames) kind) else p.depth
      atStart := false }

def pass? (table : Table) (frames : List Frame) (p : Progress) : Option Progress :=
  (nextToken? table p.rest).map fun (token, rest) => p.count frames rest token

def frame (frames : List Frame) (p : Progress) : Frame :=
  { kind := p.kind
    offset := p.depth.getD (inheritedLevel frames) - p.nesting.running
    level := p.nesting.running }

inductive Ends (table : Table) (frames : List Frame) : Progress → Progress → Prop
  | stop {p : Progress} : p.pass? table frames = none → Ends table frames p p
  | pass {p q last : Progress} : p.pass? table frames = some q → Ends table frames q last →
      Ends table frames p last

theorem count_rest (frames : List Frame) (p : Progress) (rest : Text) (token : Token) :
    (p.count frames rest token).rest = rest := by
  cases token <;> rfl

theorem count_atStart (frames : List Frame) (p : Progress) (rest : Text) (token : Token) :
    (p.count frames rest token).atStart = false := by
  cases token <;> rfl

theorem Ends.depth (h : Ends table frames p q) (hp : p.atStart = false) : q.depth = p.depth := by
  induction h with
  | stop _ => rfl
  | @pass p q last hpass _ ih =>
    obtain ⟨⟨token, rest⟩, -, rfl⟩ := Option.map_eq_some_iff.mp hpass
    rw [ih (count_atStart frames p rest token)]
    cases token with
    | other => rfl
    | rule kind => simp [count, hp]

/-- The passes are the tokens of what was left. -/
theorem Ends.tokens (h : Ends table frames p q) : ∃ ts, Lexes table p.rest ts ∧
    q.nesting = (kindsOf ts).foldl (Nesting.apply frames) p.nesting ∧
    q.kind = p.kind.or (kindsOf ts).head? := by
  induction h with
  | stop hstop => exact ⟨[], .stop (Option.map_eq_none_iff.mp hstop), rfl, by simp [kindsOf]⟩
  | @pass p q last hpass _ ih =>
    obtain ⟨⟨token, rest⟩, hnext, rfl⟩ := Option.map_eq_some_iff.mp hpass
    obtain ⟨ts, hts, hnesting, hkind⟩ := ih
    rw [count_rest] at hts
    refine ⟨token :: ts, .next hnext hts, ?_⟩
    cases token with
    | other => exact ⟨hnesting, hkind⟩
    | rule kind =>
      refine ⟨hnesting, hkind.trans ?_⟩
      cases hp : p.kind <;> simp [count, hp, kindsOf, Token.kind?]

theorem exists_ends_iff (table : Table) (frames : List Frame) (p : Progress) :
    (∃ q, Ends table frames p q) ↔ ∃ ts, Lexes table p.rest ts := by
  constructor
  · rintro ⟨q, hends⟩
    obtain ⟨ts, hts, -⟩ := hends.tokens
    exact ⟨ts, hts⟩
  · rintro ⟨ts, hts⟩
    generalize hrest : p.rest = t at hts
    induction hts generalizing p with
    | stop hnone =>
      subst hrest
      exact ⟨p, .stop (Option.map_eq_none_iff.mpr hnone)⟩
    | @next t rest token ts hnext _ ih =>
      subst hrest
      obtain ⟨q, hends⟩ := ih (p.count frames rest token) (count_rest frames p rest token)
      exact ⟨q, .pass (Option.map_eq_some_iff.mpr ⟨(token, rest), hnext, rfl⟩) hends⟩

/-- Only the first token has a say in the depth of the line. -/
theorem depth_of_ends {ts : List Token} (h : Ends table frames (start frames line) q)
    (hts : Lexes table (Text.trim line) ts) : q.depth = ts.head?.bind fun token =>
      token.kind?.map fun kind => ((start frames line).nesting.apply frames kind).lineDepth
        (inheritedLevel frames) kind := by
  cases h with
  | stop hstop =>
    have hnone := Option.map_eq_none_iff.mp hstop
    cases hts with
    | stop _ => rfl
    | next hnext _ => cases hnone.symm.trans hnext
  | pass hpass hrest =>
    obtain ⟨⟨token, rest⟩, hnext, rfl⟩ := Option.map_eq_some_iff.mp hpass
    rw [hrest.depth (count_atStart frames _ rest token)]
    cases hts with
    | stop hnone => cases hnone.symm.trans hnext
    | next hnext' _ =>
      cases hnext.symm.trans hnext'
      cases token <;> rfl

theorem frame_of_ends (h : Ends table frames (start frames line) q) :
    q.frame frames = frameFor table frames line := by
  obtain ⟨ts, hts, hnesting, hkind⟩ := h.tokens
  have hdepth := depth_of_ends h hts
  have htokens := tokens_eq_of_lexes hts
  have hlevel : q.nesting.running = (frameOf frames ts).level := by
    rw [hnesting]
    rfl
  rw [frameFor, htokens, frame, hkind, hdepth, hlevel]
  cases ts with
  | nil => rfl
  | cons token ts => cases token <;> rfl

end Progress

theorem spellingLength?_nil (t : Text) : spellingLength? [] t = some 0 := rfl

/-- An identifier is matched as a whole or not at all. -/
theorem spellingLength?_of_identifier (ht : ∀ c ∈ t, isIdentifierChar c = true)
    (hlong : spelling.length < t.length) (h : spellingLength? spelling t = some n) : n = 0 := by
  have hcuts := (Option.filter_eq_some_iff.mp h).2
  obtain ⟨covered, rest, rfl, hcovers, rfl⟩ := spellingLength?_covers h
  have hwhole := Text.intercalate_split ' ' spelling
  generalize Text.split ' ' spelling = words at hcovers hwhole
  cases hcovers with
  | last =>
    obtain rfl : covered = spelling := by simpa using hwhole
    rcases List.eq_nil_or_concat covered with rfl | ⟨earlier, c, rfl⟩
    · rfl
    · cases rest with
      | nil => simp at hlong
      | cons d rest =>
        have hc : isIdentifierChar c = true := ht c (by simp)
        have hd : isIdentifierChar d = true := ht d (by simp)
        rw [cutsIdentifier, List.take_left, List.drop_left] at hcuts
        simp [hc, hd] at hcuts
  | @more word gap covered words hgap hblank =>
    obtain ⟨c, gap, rfl⟩ := List.exists_cons_of_ne_nil hgap
    have hspace := Text.isBlank_iff.mp hblank c List.mem_cons_self
    rw [isSpace_of_isIdentifierChar (ht c (by simp))] at hspace
    cases hspace

theorem spelling_length_le (hr : r ∈ table) (hs : spelling ∈ r.spellings) :
    spelling.length ≤ (table.flatMap Rule.spellings).flatten.length :=
  (List.sublist_flatten_of_mem (List.mem_flatMap.mpr ⟨r, hr, hs⟩)).length_le

/-- An identifier longer than all spellings begins with an empty match, and nothing else. -/
theorem longestMatch?_of_identifier (hr : r ∈ table) (hs : [] ∈ r.spellings)
    (ht : ∀ c ∈ t, isIdentifierChar c = true)
    (hlong : (table.flatMap Rule.spellings).flatten.length < t.length) :
    ∃ kind, table.longestMatch? t = some (kind, 0) := by
  have hsome : (table.longestMatch? t).isSome := by
    rw [longestMatch?_isSome, List.any_eq_true]
    exact ⟨r, hr, matchLength?_isSome hs (spellingLength?_nil t)⟩
  obtain ⟨⟨kind, n⟩, hmatch⟩ := Option.isSome_iff_exists.mp hsome
  obtain ⟨r', hr', -, hlength⟩ := longestMatch?_rule hmatch
  obtain ⟨spelling, hs', hlength⟩ := matchLength?_spelling hlength
  have hshort := Nat.lt_of_le_of_lt (spelling_length_le hr' hs') hlong
  rw [spellingLength?_of_identifier ht hshort hlength] at hmatch
  exact ⟨kind, hmatch⟩

theorem trimStart_of_identifier (ht : ∀ c ∈ t, isIdentifierChar c = true) : Text.trimStart t = t := by
  cases t with
  | nil => rfl
  | cons c t =>
    have hc := isSpace_of_isIdentifierChar (ht c List.mem_cons_self)
    exact List.dropWhile_cons_of_neg (by simp [hc])

theorem trim_of_identifier (ht : ∀ c ∈ t, isIdentifierChar c = true) : Text.trim t = t := by
  have hreverse := trimStart_of_identifier fun c hc => ht c (List.mem_reverse.mp hc)
  rw [Text.trimStart] at hreverse
  rw [Text.trim, trimStart_of_identifier ht, Text.trimEnd, hreverse, List.reverse_reverse]

theorem not_lexes_of_empty_match {kind : Kind} {ts : List Token} (ht : ∀ c ∈ t, isIdentifierChar c = true)
    (hne : t ≠ []) (h : table.longestMatch? t = some (kind, 0)) : ¬ Lexes table t ts := by
  have hsame : nextToken? table t = some (.rule kind, t) := by
    rw [nextToken?, trimStart_of_identifier ht]
    obtain ⟨c, t, rfl⟩ := List.exists_cons_of_ne_nil hne
    have hc : c ≠ '#' := by
      rintro rfl
      exact absurd (ht '#' List.mem_cons_self) (by decide)
    simp [hc, h]
  exact fun hts => hts.not_repeated _ hsame

/-- An empty spelling is matched over and over again in front of a long identifier. -/
theorem exists_not_finishes (hr : r ∈ table) (hs : [] ∈ r.spellings) :
    ∃ line, ¬ table.Finishes line := by
  let line := List.replicate ((table.flatMap Rule.spellings).flatten.length + 1) 'a'
  have hline : ∀ c ∈ line, isIdentifierChar c = true := by
    intro c hc
    rw [List.eq_of_mem_replicate hc]
    rfl
  have hlong : (table.flatMap Rule.spellings).flatten.length < line.length := by
    rw [List.length_replicate]
    exact Nat.lt_succ_self _
  obtain ⟨kind, hmatch⟩ := longestMatch?_of_identifier hr hs hline hlong
  refine ⟨line, fun ⟨ts, hts⟩ => ?_⟩
  rw [trim_of_identifier hline] at hts
  exact not_lexes_of_empty_match hline (List.ne_nil_of_length_pos (Nat.zero_lt_of_lt hlong)) hmatch hts

theorem finishes_iff (table : Table) :
    (∀ line, table.Finishes line) ↔ ∀ r ∈ table, [] ∉ r.spellings := by
  constructor
  · intro hfinishes r hr hs
    obtain ⟨line, hline⟩ := exists_not_finishes hr hs
    exact hline (hfinishes line)
  · exact fun h => (advances_of_spellings h).finishes

theorem nextToken?_suffix {token : Token} (h : nextToken? table t = some (token, rest)) :
    ∃ taken, t = taken ++ rest := by
  have hspace := Text.leadingSpace_append_trimStart t
  rw [nextToken?] at h
  split at h
  · cases h
  · rename_i c trimmed hcons
    rw [hcons] at hspace
    split at h
    · cases h
    · split at h
      · rename_i kind n hmatch
        cases h
        refine ⟨Text.leadingSpace t ++ (c :: trimmed).take n, ?_⟩
        rw [List.append_assoc, List.take_append_drop, hspace]
      · cases h
        obtain ⟨taken, htaken, -⟩ := otherEnd_eq (c :: trimmed)
        refine ⟨Text.leadingSpace t ++ taken, ?_⟩
        rw [List.append_assoc, ← htaken, hspace]

theorem Progress.pass?_taken {p q : Progress} (htable : table.Advances)
    (h : p.pass? table frames = some q) : ∃ taken, p.rest = taken ++ q.rest ∧ 0 < Text.bytes taken := by
  obtain ⟨⟨token, rest⟩, hnext, rfl⟩ := Option.map_eq_some_iff.mp h
  obtain ⟨taken, htaken⟩ := nextToken?_suffix hnext
  refine ⟨taken, by rw [count_rest]; exact htaken, Text.bytes_pos ?_⟩
  rintro rfl
  have hlt := (nextToken?_rest hnext).resolve_right fun ⟨_, kind, hempty⟩ =>
    Nat.lt_irrefl 0 (htable _ _ _ hempty)
  rw [htaken, List.nil_append] at hlt
  exact Nat.lt_irrefl _ hlt

/-- Reading a line comes to an end, whatever the line and the lines before it, exactly if no spelling of
the table is empty; what it ends with is the frame of the line. With the standard table it always ends,
and every pass takes up a part of what is left. -/
theorem passes_end_iff (table : Table) :
    ((∀ frames line, ∃ q, Progress.Ends table frames (.start frames line) q) ↔
        ∀ r ∈ table, [] ∉ r.spellings) ∧
      (∀ frames line q, Progress.Ends table frames (.start frames line) q →
        q.frame frames = frameFor table frames line) ∧
      (∀ frames line, ∃ q, Progress.Ends Table.standard frames (.start frames line) q) ∧
      ∀ frames p q, Progress.pass? Table.standard frames p = some q →
        ∃ taken, p.rest = taken ++ q.rest ∧ 0 < Text.bytes taken := by
  have hends (table : Table) (frames : List Frame) (line : Text) :
      (∃ q, Progress.Ends table frames (.start frames line) q) ↔ table.Finishes line :=
    Progress.exists_ends_iff table frames (.start frames line)
  refine ⟨?_, fun _ _ _ => Progress.frame_of_ends, fun frames line => ?_, fun _ _ _ h => ?_⟩
  · rw [← finishes_iff]
    exact ⟨fun h line => (hends table [] line).mp (h [] line),
      fun h frames line => (hends table frames line).mpr (h line)⟩
  · exact (hends Table.standard frames line).mpr (advances_standard.finishes line)
  · exact Progress.pass?_taken advances_standard h

end Promptline.Indent
