import Promptline.Proofs.Indent.Tokens
import Promptline.Proofs.Text.Offsets

set_option autoImplicit false

namespace Promptline.Indent

open Text

variable {table : Table} {t : Text}

def stringEnd (quote : Char) (escaped : Bool) (offset : Nat) : Text → Nat
  | [] => offset
  | c :: t =>
    let next := offset + c.utf8Size
    if escaped then stringEnd quote false next t
    else if c = '\\' then stringEnd quote true next t
    else if c = quote then next
    else stringEnd quote false next t

def otherEnd : Text → Nat
  | [] => 0
  | c :: t =>
    if isIdentifierChar c then
      (indicesOf (fun d => !isIdentifierChar d) (c :: t)).head?.getD (bytes (c :: t))
    else if c = '"' || c = '\'' then stringEnd c false c.utf8Size t
    else c.utf8Size

def readTokens? (table : Table) : Nat → Text → Option (List Token)
  | 0, _ => some []
  | limit + 1, t =>
    match (indicesOf (fun c => !isSpace c) t).head? with
    | none => some []
    | some start => do
      let (_, t) ← splitAt? start t
      if t.head? = some '#' then return []
      else
        let (token, stop) :=
          match table.longestMatch? t with
          | some (kind, n) => (Token.rule kind, bytes (t.take n))
          | none => (Token.other, otherEnd t)
        let (_, rest) ← splitAt? stop t
        return token :: (← readTokens? table limit rest)

def frameFor? (table : Table) (frames : List Frame) (line : Text) : Option Frame := do
  let ts ← readTokens? table line.length (trim line)
  return frameOf frames ts

def scan? (table : Table) (lines : List Text) : Option (List Frame) :=
  lines.foldlM (fun frames line => do return frames ++ [← frameFor? table frames line]) []

theorem stringEnd_eq (quote : Char) (offset : Nat) (t : Text) :
    ∃ taken, t = taken ++ afterString quote t ∧
      stringEnd quote false offset t = offset + bytes taken := by
  fun_induction afterString quote t generalizing offset with
  | case1 => exact ⟨[], rfl, rfl⟩
  | case2 c =>
    refine ⟨[c], rfl, ?_⟩
    simp only [stringEnd, bytes]
    split <;> simp
  | case3 d t ih =>
    obtain ⟨taken, ht, hend⟩ := ih (offset + '\\'.utf8Size + d.utf8Size)
    refine ⟨'\\' :: d :: taken, by rw [List.cons_append, List.cons_append, ← ht], ?_⟩
    simp only [stringEnd, bytes, hend]
    simp [Nat.add_assoc]
  | case4 d t hc =>
    exact ⟨[quote], rfl, by simp [stringEnd, bytes, hc]⟩
  | case5 c d t hescape hc ih =>
    obtain ⟨taken, ht, hend⟩ := ih (offset + c.utf8Size)
    refine ⟨c :: taken, by rw [List.cons_append, ← ht], ?_⟩
    rw [stringEnd, if_neg Bool.false_ne_true, if_neg hescape, if_neg hc, hend, bytes, Nat.add_assoc]

theorem otherEnd_eq (t : Text) : ∃ taken, t = taken ++ afterOther t ∧ bytes taken = otherEnd t := by
  cases t with
  | nil => exact ⟨[], rfl, rfl⟩
  | cons c t =>
    rw [otherEnd, afterOther]
    split
    · rename_i hc
      have hsplit := List.takeWhile_append_dropWhile (p := isIdentifierChar) (l := c :: t)
      refine ⟨(c :: t).takeWhile isIdentifierChar, ?_, ?_⟩
      · rw [List.dropWhile_cons_of_pos hc] at hsplit
        exact hsplit.symm
      · rw [indicesOf_not_head?]
        split
        · rename_i hnone
          rw [hnone, List.append_nil] at hsplit
          rw [hsplit]
          rfl
        · rfl
    · split
      · obtain ⟨taken, ht, hend⟩ := stringEnd_eq c c.utf8Size t
        exact ⟨c :: taken, by rw [List.cons_append, ← ht], hend.symm⟩
      · exact ⟨[c], rfl, rfl⟩

theorem readTokens?_eq (table : Table) (limit : Nat) (t : Text) :
    readTokens? table limit t = some (readTokens table limit t) := by
  induction limit generalizing t with
  | zero => rfl
  | succ limit ih =>
    have hsplit := splitAt?_bytes (t.takeWhile isSpace) (trimStart t)
    rw [trimStart, List.takeWhile_append_dropWhile] at hsplit
    rw [readTokens?, readTokens, nextToken?, indicesOf_not_head?, trimStart]
    cases hrest : t.dropWhile isSpace with
    | nil => rfl
    | cons c rest =>
      rw [hrest] at hsplit
      rw [if_neg (List.cons_ne_nil c rest)]
      simp only [hsplit, Option.bind_eq_bind, Option.bind_some, List.head?_cons, Option.some_inj]
      by_cases hcomment : c = '#'
      · simp [hcomment]
      · rw [if_neg hcomment, if_neg hcomment]
        cases hmatch : table.longestMatch? (c :: rest) with
        | none =>
          have hcut := splitAt?_eq_some_iff.mpr (otherEnd_eq (c :: rest)).choose_spec
          simp only [hcut, Option.bind_some, ih]
          rfl
        | some best =>
          have hcut := splitAt?_bytes ((c :: rest).take best.2) ((c :: rest).drop best.2)
          rw [List.take_append_drop] at hcut
          simp only [hcut, Option.bind_some, ih]
          rfl

theorem frameFor?_eq (table : Table) (frames : List Frame) (line : Text) :
    frameFor? table frames line = some (frameFor table frames line) := by
  rw [frameFor?, readTokens?_eq]
  rfl

theorem scan?_eq (table : Table) (lines : List Text) :
    scan? table lines = some (scan table lines) := by
  have hfrom (frames : List Frame) :
      lines.foldlM (fun frames line => do return frames ++ [← frameFor? table frames line]) frames =
        some (lines.foldl (advance table) frames) := by
    induction lines generalizing frames with
    | nil => rfl
    | cons line lines ih =>
      rw [List.foldlM_cons, frameFor?_eq]
      exact ih _
  exact hfrom []

end Promptline.Indent
