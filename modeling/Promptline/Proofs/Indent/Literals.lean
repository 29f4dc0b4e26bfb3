import Promptline.Proofs.Indent.Tokens

set_option autoImplicit false

namespace Promptline.Indent

variable {t rest v w x y : Text} {c d quote : Char} {token : Token} {ts us : List Token}

/-- What a place in a line is inside of. A literal is escaped right behind a backslash. -/
inductive Region
  | code
  | literal (quote : Char) (escaped : Bool)
  | comment
  deriving DecidableEq

def Region.after : Region → Char → Region
  | .code, c => if c = '#' then .comment else if c = '"' || c = '\'' then .literal c false else .code
  | .literal quote true, _ => .literal quote false
  | .literal quote false, c =>
    if c = '\\' then .literal quote true
    else if c = quote then .code
    else .literal quote false
  | .comment, _ => .comment

def regionAfter (t : Text) : Region := t.foldl Region.after .code

def Leaves (c : Char) : Prop := c = '#' ∨ c = '"' ∨ c = '\''

theorem Leaves.isSpace (hd : Leaves d) : Text.isSpace d = false := by
  rcases hd with rfl | rfl | rfl <;> decide

theorem Leaves.isIdentifierChar (hd : Leaves d) : isIdentifierChar d = false := by
  rcases hd with rfl | rfl | rfl <;> decide

theorem not_leaves_of_isSpace (hc : Text.isSpace c = true) : ¬ Leaves c := by
  intro hleaves
  rw [hleaves.isSpace] at hc
  cases hc

theorem not_leaves_of_isIdentifierChar (hc : isIdentifierChar c = true) : ¬ Leaves c := by
  intro hleaves
  rw [hleaves.isIdentifierChar] at hc
  cases hc

theorem Leaves.keywords (hd : Leaves d) : Table.standard.Keywords d := by
  rcases hd with rfl | rfl | rfl <;> decide

theorem after_code (hc : ¬ Leaves c) : Region.code.after c = .code := by
  unfold Leaves at hc
  simp_all [Region.after]

theorem regionAfter_append (hv : ∀ c ∈ v, ¬ Leaves c) (t : Text) :
    regionAfter (v ++ t) = regionAfter t := by
  induction v with
  | nil => rfl
  | cons c v ih =>
    obtain ⟨hc, hv⟩ := List.forall_mem_cons.mp hv
    rw [List.cons_append, regionAfter, List.foldl_cons, after_code hc]
    exact ih hv

theorem regionAfter_trimStart (t : Text) : regionAfter (Text.trimStart t) = regionAfter t := by
  have hsplit := Text.leadingSpace_append_trimStart t
  have hspace : ∀ c ∈ Text.leadingSpace t, ¬ Leaves c := fun c hc =>
    not_leaves_of_isSpace (List.mem_takeWhile_imp hc)
  rw [← regionAfter_append hspace, hsplit]

theorem regionAfter_concat (t : Text) (c : Char) : regionAfter (t ++ [c]) = (regionAfter t).after c := by
  rw [regionAfter, List.foldl_append]
  rfl

theorem leaves_of_literal {escaped : Bool} (h : regionAfter t = .literal quote escaped) : Leaves quote := by
  induction t using List.reverseRecOn generalizing quote escaped with
  | nil => cases h
  | append_singleton t c ih =>
    rw [regionAfter_concat] at h
    cases hregion : regionAfter t with
    | code =>
      rw [hregion] at h
      unfold Region.after at h
      grind [Leaves]
    | comment =>
      rw [hregion] at h
      cases h
    | literal q e =>
      rw [hregion] at h
      have hq := ih hregion
      cases e <;> grind [Region.after]

theorem regionAfter_of_blank (hw : Text.isBlank w = true) (h : regionAfter (v ++ w) = .code) :
    regionAfter v = .code := by
  induction w using List.reverseRecOn with
  | nil => rwa [List.append_nil] at h
  | append_singleton w c ih =>
    obtain ⟨hw, hlast⟩ := Text.isBlank_append_iff.mp hw
    have hc : Text.isSpace c = true := by simpa [Text.isBlank] using hlast
    refine ih hw ?_
    rw [← List.append_assoc, regionAfter_concat] at h
    -- Only a quote leads back into the code.
    cases hregion : regionAfter (v ++ w) with
    | code => rfl
    | comment =>
      rw [hregion] at h
      cases h
    | literal quote escaped =>
      have hquote := (leaves_of_literal hregion).isSpace
      rw [hregion] at h
      cases escaped <;> grind [Region.after]

theorem afterString_append (hquote : quote ≠ '\\') (x : Text)
    (h : t.foldl Region.after (.literal quote false) = .code) :
    afterString quote (t ++ x) = afterString quote t ++ x ∧ regionAfter (afterString quote t) = .code := by
  fun_induction afterString quote t with
  | case1 => cases h
  | case2 c =>
    have hc : c = quote := by
      by_contra hne
      by_cases hescape : c = '\\' <;> simp [Region.after, hne, hescape] at h
    subst hc
    refine ⟨?_, rfl⟩
    cases x with
    | nil => rfl
    | cons d x => simp [afterString, hquote]
  | case3 d t ih => exact ih h
  | case4 d t hescape =>
    rw [List.foldl_cons, Region.after, if_neg hquote, if_pos rfl] at h
    exact ⟨by simp [afterString, hquote], h⟩
  | case5 c d t hescape hc ih =>
    obtain ⟨hrest, hregion⟩ := ih (by simpa [Region.after, hescape, hc] using h)
    refine ⟨?_, hregion⟩
    rw [← hrest]
    simp [afterString, hescape, hc]

theorem afterString_closed {s : Text} (hquote : quote ∉ s) (hescape : '\\' ∉ s) (hne : quote ≠ '\\')
    (b : Text) : afterString quote (s ++ quote :: b) = b := by
  induction s with
  | nil => cases b <;> simp [afterString, hne]
  | cons c s ih =>
    rw [List.mem_cons, not_or] at hquote hescape
    obtain ⟨d, rest, hsplit⟩ := List.exists_cons_of_ne_nil (l := s ++ quote :: b) (by simp)
    rw [List.cons_append, hsplit, afterString, if_neg (Ne.symm hescape.1), if_neg (Ne.symm hquote.1),
      ← hsplit]
    exact ih hquote.2 hescape.2

theorem afterOther_append (hc : c ≠ '#') (hx : x.head?.any isIdentifierChar = false)
    (h : regionAfter (c :: t) = .code) :
    afterOther (c :: (t ++ x)) = afterOther (c :: t) ++ x ∧
      regionAfter (afterOther (c :: t)) = .code := by
  rw [regionAfter, List.foldl_cons] at h
  rw [afterOther, afterOther]
  split
  · rename_i hident
    have hskip : x.dropWhile isIdentifierChar = x := by
      cases x with
      | nil => rfl
      | cons d x => exact List.dropWhile_cons_of_neg (by simpa using hx)
    have hplain : ∀ e ∈ t.takeWhile isIdentifierChar, ¬ Leaves e := fun e he =>
      not_leaves_of_isIdentifierChar (List.mem_takeWhile_imp he)
    have hsplit := List.takeWhile_append_dropWhile (p := isIdentifierChar) (l := t)
    rw [after_code (not_leaves_of_isIdentifierChar hident), ← regionAfter, ← hsplit,
      regionAfter_append hplain] at h
    refine ⟨?_, h⟩
    rw [List.dropWhile_append, hskip]
    split
    · rename_i hnone
      rw [List.isEmpty_iff.mp hnone, List.nil_append]
    · rfl
  · split
    · rename_i hquote
      have hopened : Region.code.after c = .literal c false := by simp [Region.after, hc, hquote]
      rw [hopened] at h
      refine afterString_append ?_ x h
      rintro rfl
      simp at hquote
    · rename_i hquote
      have hcode : ¬ Leaves c := by simpa [Leaves, hc] using hquote
      rw [after_code hcode] at h
      exact ⟨rfl, h⟩

theorem nextToken?_append (hw : Text.isBlank w = true) (hd : Leaves d) (h : regionAfter v = .code)
    (hnext : nextToken? Table.standard v = some (token, rest)) :
    nextToken? Table.standard (v ++ (w ++ d :: y)) = some (token, rest ++ (w ++ d :: y)) ∧
      regionAfter rest = .code := by
  rw [← regionAfter_trimStart] at h
  rw [nextToken?] at hnext ⊢
  cases htrimmed : Text.trimStart v with
  | nil => simp [htrimmed] at hnext
  | cons c t =>
    rw [htrimmed] at hnext h
    have hblank : Text.isBlank v = false := by
      by_contra hblank
      rw [Text.trimStart_eq_nil (by simpa using hblank)] at htrimmed
      cases htrimmed
    rw [Text.trimStart_append hblank, htrimmed, List.cons_append]
    dsimp only at hnext ⊢
    split at hnext
    · cases hnext
    · rename_i hc
      rw [if_neg hc, ← List.cons_append, longestMatch?_ended hw hd.isSpace hd.isIdentifierChar hd.keywords]
      split at hnext
      · rename_i kind n hmatch
        cases hnext
        have hplain : ∀ e ∈ (c :: t).take n, ¬ Leaves e := fun e he hleaves =>
          longestMatch?_not_mem hleaves.isSpace hleaves.keywords hmatch he
        rw [List.drop_append_of_le_length (longestMatch?_le_length hmatch)]
        refine ⟨rfl, ?_⟩
        rwa [← List.take_append_drop n (c :: t), regionAfter_append hplain] at h
      · cases hnext
        obtain ⟨hrest, hregion⟩ := afterOther_append hc (head?_ended (y := y) hw hd.isIdentifierChar) h
        rw [List.cons_append, hrest]
        exact ⟨rfl, hregion⟩

/-- Reading stops in the code at the end only, not at a comment. -/
theorem isBlank_of_nextToken? (h : regionAfter v = .code) (hnone : nextToken? Table.standard v = none) :
    Text.isBlank v = true := by
  by_contra hblank
  obtain ⟨c, rest, htrimmed⟩ := List.exists_cons_of_ne_nil
    (Text.trimStart_ne_nil (Bool.eq_false_iff.mpr hblank))
  have hcomment (t : Text) : t.foldl Region.after .comment = .comment := by
    induction t with
    | nil => rfl
    | cons c t ih => exact ih
  rw [← regionAfter_trimStart, htrimmed, regionAfter, List.foldl_cons] at h
  simp only [nextToken?, htrimmed] at hnone
  split at hnone
  · rename_i hc
    subst hc
    cases (hcomment rest).symm.trans h
  · split at hnone <;> cases hnone

theorem Lexes.of_blank (hw : Text.isBlank w = true) (h : Lexes Table.standard t ts) :
    Lexes Table.standard (w ++ t) ts := by
  have hsame : nextToken? Table.standard (w ++ t) = nextToken? Table.standard t := by
    rw [nextToken?, nextToken?, Text.trimStart_blank_append hw]
  cases h with
  | stop hnone => exact .stop (hsame.trans hnone)
  | next hnext hrest => exact .next (hsame.trans hnext) hrest

/-- A text that ends in the code is read as it is, whatever comment or literal follows. -/
theorem Lexes.append (hw : Text.isBlank w = true) (hd : Leaves d) (hv : Lexes Table.standard v ts)
    (h : regionAfter v = .code) (hx : Lexes Table.standard (d :: y) us) :
    Lexes Table.standard (v ++ (w ++ d :: y)) (ts ++ us) := by
  induction hv with
  | stop hnone => exact (hx.of_blank hw).of_blank (isBlank_of_nextToken? h hnone)
  | next hnext _ ih =>
    obtain ⟨hnext, hregion⟩ := nextToken?_append (y := y) hw hd h hnext
    exact .next hnext (ih hregion)

theorem lexes_comment (t : Text) : Lexes Table.standard ('#' :: t) [] := .stop rfl

theorem lexes_literal {s b : Text} (hquote : quote = '"' ∨ quote = '\'') (hs : quote ∉ s)
    (hescape : '\\' ∉ s) (hb : Lexes Table.standard b us) :
    Lexes Table.standard (quote :: (s ++ quote :: b)) (.other :: us) := by
  have hleaves : Leaves quote := Or.inr hquote
  have hcomment : quote ≠ '#' := by rcases hquote with rfl | rfl <;> decide
  have hne : quote ≠ '\\' := by rcases hquote with rfl | rfl <;> decide
  have htrimmed : Text.trimStart (quote :: (s ++ quote :: b)) = quote :: (s ++ quote :: b) :=
    List.dropWhile_cons_of_neg (by simp [hleaves.isSpace])
  have hmatch : Table.standard.longestMatch? (quote :: (s ++ quote :: b)) = none :=
    (longestMatch?_ended (v := []) (w := []) rfl hleaves.isSpace hleaves.isIdentifierChar
      hleaves.keywords).trans (by decide)
  have hrest : afterOther (quote :: (s ++ quote :: b)) = b := by
    rw [afterOther, hleaves.isIdentifierChar, if_neg Bool.false_ne_true, if_pos (by simpa using hquote)]
    exact afterString_closed hs hescape hne b
  refine .next ?_ hb
  simp only [nextToken?, htrimmed, if_neg hcomment, hmatch, hrest]

/-- The tokens of a line up to a comment or literal are read as if the line ended there. -/
theorem tokens_append (ha : regionAfter t = .code) (hd : Leaves d)
    (hx : Lexes Table.standard (d :: Text.trimEnd y) us) :
    tokens Table.standard (t ++ d :: y) = tokens Table.standard t ++ us := by
  obtain ⟨w, hw, hsplit⟩ := Text.exists_trailing (Text.trimStart t)
  have hregion : regionAfter (Text.trim t) = .code := by
    refine regionAfter_of_blank hw ?_
    rw [Text.trim, ← hsplit, regionAfter_trimStart, ha]
  obtain ⟨ts, hts⟩ := advances_standard.exists_lexes (Text.trim t)
  rw [tokens_eq_of_lexes hts]
  refine tokens_eq_of_lexes ?_
  rw [Text.trim_append_cons hd.isSpace, hsplit, List.append_assoc]
  exact hts.append hw hd hregion hx

/-- One line can stand for the other: no frame tells them apart. -/
def SameIndentation (table : Table) (l l' : Text) : Prop :=
  (∀ frames, frameFor table frames l = frameFor table frames l') ∧
    ∀ above below, scan table (above ++ l :: below) = scan table (above ++ l' :: below)

theorem sameIndentation_of_tokens {table : Table} {l l' : Text} (h : tokens table l = tokens table l') :
    SameIndentation table l l' := by
  refine ⟨fun frames => by rw [frameFor, frameFor, h], fun above below => ?_⟩
  rw [scan_eq_foldl, scan_eq_foldl, List.map_append, List.map_append, List.map_cons, List.map_cons, h]

/-- Behind code of the block language, a comment goes unnoticed, and so does what a literal holds. -/
theorem literals_are_opaque {a : Text} (ha : regionAfter a = .code) :
    (∀ c, SameIndentation Table.standard (a ++ '#' :: c) a) ∧
      ∀ quote s s' b, quote = '"' ∨ quote = '\'' →
        quote ∉ s → '\\' ∉ s → quote ∉ s' → '\\' ∉ s' →
        SameIndentation Table.standard (a ++ quote :: (s ++ quote :: b))
          (a ++ quote :: (s' ++ quote :: b)) := by
  constructor
  · intro c
    apply sameIndentation_of_tokens
    rw [tokens_append ha (Or.inl rfl) (lexes_comment (Text.trimEnd c)), List.append_nil]
  · intro quote s s' b hquote hs hescape hs' hescape'
    have hleaves : Leaves quote := Or.inr hquote
    have hend (s : Text) : Text.trimEnd (s ++ quote :: b) = s ++ quote :: Text.trimEnd b := by
      have hvisible : Text.isBlank (quote :: b) = false := by simp [Text.isBlank, hleaves.isSpace]
      rw [Text.trimEnd_append hvisible, Text.trimEnd_cons hleaves.isSpace]
    obtain ⟨us, hus⟩ := advances_standard.exists_lexes (Text.trimEnd b)
    have hread {s : Text} (hs : quote ∉ s) (hescape : '\\' ∉ s) :
        tokens Table.standard (a ++ quote :: (s ++ quote :: b)) =
          tokens Table.standard a ++ .other :: us := by
      refine tokens_append ha hleaves ?_
      rw [hend]
      exact lexes_literal hquote hs hescape hus
    exact sameIndentation_of_tokens ((hread hs hescape).trans (hread hs' hescape').symm)

/-- Behind an escaped quote and a block opened, neither a comment nor a literal ends the block. -/
theorem ended_in_literal :
    let line := "fun f('\\''): ".toList
    regionAfter line = .code ∧
      SameIndentation Table.standard (line ++ "# end".toList) line ∧
      SameIndentation Table.standard (line ++ "\"end\" |".toList) (line ++ "\")\" |".toList) := by
  have hcode : regionAfter "fun f('\\''): ".toList = .code := by decide
  obtain ⟨hcomment, hliteral⟩ := literals_are_opaque hcode
  exact ⟨hcode, hcomment " end".toList,
    hliteral '"' "end".toList ")".toList " |".toList (Or.inl rfl) (by decide) (by decide) (by decide)
      (by decide)⟩

end Promptline.Indent
