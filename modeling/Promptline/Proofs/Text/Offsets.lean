import Mathlib.Data.List.TakeWhile
import Promptline.Text.Basic
import Promptline.Text.Cluster

set_option autoImplicit false

namespace Promptline.Text

variable {s t u l r new : Text} {c d : Char} {m n : Nat}

def splitAt? : Nat → Text → Option (Text × Text)
  | 0, t => some ([], t)
  | _ + 1, [] => none
  | n + 1, c :: t =>
    if c.utf8Size ≤ n + 1 then
      (splitAt? (n + 1 - c.utf8Size) t).map fun (before, after) => (c :: before, after)
    else none

def isBoundary (n : Nat) (t : Text) : Bool := (splitAt? n t).isSome

def slice? (start stop : Nat) (t : Text) : Option Text := do
  let (before, _) ← splitAt? stop t
  let (_, part) ← splitAt? start before
  return part

def insertAt? (n : Nat) (new t : Text) : Option Text := do
  let (before, after) ← splitAt? n t
  return before ++ new ++ after

def replaceRange? (start stop : Nat) (new t : Text) : Option Text := do
  let (before, after) ← splitAt? stop t
  let (kept, _) ← splitAt? start before
  return kept ++ new ++ after

def sub? (m n : Nat) : Option Nat := if n ≤ m then some (m - n) else none

def div? (m n : Nat) : Option Nat := if n = 0 then none else some (m / n)

def mod? (m n : Nat) : Option Nat := if n = 0 then none else some (m % n)

/-- The nearest offset downwards that is not inside a character. -/
def snapDown? (t : Text) : Nat → Option Nat
  | 0 => if isBoundary 0 t then some 0 else none
  | n + 1 => if isBoundary (n + 1) t then some (n + 1) else snapDown? t n

def indicesOf (kind : Char → Bool) : Text → List Nat
  | [] => []
  | c :: t =>
    let later := (indicesOf kind t).map (c.utf8Size + ·)
    if kind c then 0 :: later else later

def starts : Nat → List Text → List Nat
  | _, [] => []
  | n, part :: parts => n :: starts (n + bytes part) parts

theorem bytes_pos (ht : t ≠ []) : 0 < bytes t := by
  obtain ⟨c, t, rfl⟩ := List.exists_cons_of_ne_nil ht
  exact Nat.add_pos_left (Char.utf8Size_pos c) _

theorem bytes_eq_zero_iff : bytes t = 0 ↔ t = [] := by
  constructor
  · intro hzero
    by_contra hne
    exact Nat.ne_of_gt (bytes_pos hne) hzero
  · rintro rfl
    rfl

theorem splitAt?_bytes (s t : Text) : splitAt? (bytes s) (s ++ t) = some (s, t) := by
  induction s with
  | nil => cases t <;> rfl
  | cons c s ih =>
    have hpos := Char.utf8Size_pos c
    obtain ⟨n, hn⟩ : ∃ n, bytes (c :: s) = n + 1 := Nat.exists_eq_add_one.mpr (bytes_pos (by simp))
    have hsize : c.utf8Size + bytes s = n + 1 := hn
    rw [hn, List.cons_append, splitAt?, if_pos (by omega)]
    rw [show n + 1 - c.utf8Size = bytes s by omega, ih]
    rfl

theorem splitAt?_eq_some_iff : splitAt? n t = some (l, r) ↔ t = l ++ r ∧ bytes l = n := by
  constructor
  · intro h
    induction t generalizing n l with
    | nil =>
      cases n with
      | zero => cases h; exact ⟨rfl, rfl⟩
      | succ n => cases h
    | cons c t ih =>
      cases n with
      | zero => cases h; exact ⟨rfl, rfl⟩
      | succ n =>
        rw [splitAt?] at h
        split at h
        · rename_i hsize
          obtain ⟨⟨before, after⟩, hrest, heq⟩ := Option.map_eq_some_iff.mp h
          cases heq
          obtain ⟨rfl, hbytes⟩ := ih hrest
          refine ⟨rfl, ?_⟩
          rw [bytes, hbytes]
          omega
        · cases h
  · rintro ⟨rfl, rfl⟩
    exact splitAt?_bytes l r

theorem isBoundary_iff : isBoundary n t = true ↔ ∃ l r, t = l ++ r ∧ bytes l = n := by
  simp only [isBoundary, Option.isSome_iff_exists, Prod.exists, splitAt?_eq_some_iff]

example : isBoundary 1 "é".toList = false := by decide

theorem slice?_bytes (s t u : Text) : slice? (bytes s) (bytes s + bytes t) (s ++ t ++ u) = some t := by
  rw [slice?, ← bytes_append, splitAt?_bytes]
  simp [splitAt?_bytes]

theorem insertAt?_bytes (s t new : Text) :
    insertAt? (bytes s) new (s ++ t) = some (s ++ new ++ t) := by
  rw [insertAt?, splitAt?_bytes]
  rfl

theorem replaceRange?_bytes (s t u new : Text) :
    replaceRange? (bytes s) (bytes s + bytes t) new (s ++ t ++ u) = some (s ++ new ++ u) := by
  rw [replaceRange?, ← bytes_append, splitAt?_bytes]
  simp [splitAt?_bytes]

theorem sub?_add (m n : Nat) : sub? (m + n) m = some n := by
  rw [sub?, if_pos (Nat.le_add_right m n), Nat.add_sub_cancel_left]

theorem takeBytes_bytes (n : Nat) (s t : Text) :
    takeBytes (bytes s + n) (s ++ t) = s ++ takeBytes n t := by
  induction s with
  | nil => rw [bytes, Nat.zero_add]; rfl
  | cons c s ih =>
    rw [List.cons_append, takeBytes, bytes, if_pos (by omega)]
    rw [show c.utf8Size + bytes s + n - c.utf8Size = bytes s + n by omega, ih]
    rfl

theorem takeBytes_zero (t : Text) : takeBytes 0 t = [] := by
  cases t with
  | nil => rfl
  | cons c t => rw [takeBytes, if_neg (by have := Char.utf8Size_pos c; omega)]

theorem takeBytes_of_le (h : bytes t ≤ n) : takeBytes n t = t := by
  obtain ⟨m, rfl⟩ := Nat.exists_eq_add_of_le h
  have hall := takeBytes_bytes m t []
  rwa [List.append_nil, takeBytes, List.append_nil] at hall

theorem takeBytes_append (h : n ≤ bytes s) (t : Text) : takeBytes n (s ++ t) = takeBytes n s := by
  induction s generalizing n with
  | nil =>
    rw [Nat.le_zero.mp h, takeBytes_zero, takeBytes_zero]
  | cons c s ih =>
    rw [List.cons_append, takeBytes, takeBytes]
    split
    · rw [ih]
      rw [bytes] at h
      omega
    · rfl

theorem takeBytes_min (n : Nat) (t : Text) : takeBytes (min n (bytes t)) t = takeBytes n t := by
  rcases Nat.le_total n (bytes t) with h | h
  · rw [Nat.min_eq_left h]
  · rw [Nat.min_eq_right h, takeBytes_of_le h, takeBytes_of_le (Nat.le_refl _)]

theorem takeBytes_congr (hm : bytes (takeBytes n t) ≤ m) (hn : m ≤ n) :
    takeBytes m t = takeBytes n t := by
  induction t generalizing m n with
  | nil => rfl
  | cons c t ih =>
    rw [takeBytes] at hm
    rw [takeBytes, takeBytes]
    split at hm
    · rw [bytes] at hm
      rw [if_pos (by omega), if_pos (by omega), ih (n := n - c.utf8Size) (by omega) (by omega)]
    · rw [if_neg (by omega), if_neg (by omega)]

theorem snapDown?_eq (t : Text) (n : Nat) : snapDown? t n = some (bytes (takeBytes n t)) := by
  have hboundary (n : Nat) (h : isBoundary n t = true) : bytes (takeBytes n t) = n := by
    obtain ⟨l, r, rfl, rfl⟩ := isBoundary_iff.mp h
    have hcut := takeBytes_bytes 0 l r
    rw [Nat.add_zero, takeBytes_zero, List.append_nil] at hcut
    rw [hcut]
  induction n with
  | zero =>
    have hstart : isBoundary 0 t = true := isBoundary_iff.mpr ⟨[], t, rfl, rfl⟩
    rw [snapDown?, if_pos hstart, takeBytes_zero]
    rfl
  | succ n ih =>
    rw [snapDown?]
    split
    · rename_i h
      rw [hboundary _ h]
    · rename_i h
      obtain ⟨rest, hrest⟩ := takeBytes_isPrefix (n + 1) t
      have hle := bytes_takeBytes_le (n + 1) t
      have hne : bytes (takeBytes (n + 1) t) ≠ n + 1 :=
        fun heq => h (isBoundary_iff.mpr ⟨_, rest, hrest.symm, heq⟩)
      rw [ih, takeBytes_congr (n := n + 1) (by omega) (Nat.le_succ n)]

section

variable {kind : Char → Bool}

theorem indicesOf_append (kind : Char → Bool) (s t : Text) :
    indicesOf kind (s ++ t) = indicesOf kind s ++ (indicesOf kind t).map (bytes s + ·) := by
  induction s with
  | nil => simp [indicesOf, bytes]
  | cons d s ih =>
    have hshift : (indicesOf kind t).map ((d.utf8Size + ·) ∘ (bytes s + ·)) =
        (indicesOf kind t).map (bytes (d :: s) + ·) := by
      refine List.map_congr_left fun i _ => ?_
      simp only [Function.comp_apply, bytes]
      omega
    simp only [List.cons_append, indicesOf, ih, List.map_append, List.map_map, hshift]
    split <;> rfl

theorem indicesOf_of_none (h : ∀ c ∈ t, kind c = false) : indicesOf kind t = [] := by
  induction t with
  | nil => rfl
  | cons c t ih =>
    rw [List.forall_mem_cons] at h
    rw [indicesOf, ih h.2, h.1]
    rfl

theorem indicesOf_length (kind : Char → Bool) (t : Text) :
    (indicesOf kind t).length = t.countP kind := by
  induction t with
  | nil => rfl
  | cons c t ih =>
    rw [indicesOf, List.countP_cons]
    split <;> simp [*]

theorem indicesOf_head? (hs : ∀ c ∈ s, kind c = false) (ht : ∀ c, t.head? = some c → kind c = true) :
    (indicesOf kind (s ++ t)).head? = if t = [] then none else some (bytes s) := by
  rw [indicesOf_append, indicesOf_of_none hs, List.nil_append]
  cases t with
  | nil => rfl
  | cons c t => simp [indicesOf, ht c rfl]

end

/-- The first character for which `p` fails. -/
theorem indicesOf_not_head? (p : Char → Bool) (t : Text) :
    (indicesOf (fun c => !p c) t).head? =
      if t.dropWhile p = [] then none else some (bytes (t.takeWhile p)) := by
  have hfirst := List.head?_dropWhile_not p t
  have hkept : ∀ c ∈ t.takeWhile p, (!p c) = false := by
    intro c hc
    rw [List.mem_takeWhile_imp hc]
    rfl
  have hrest : ∀ c, (t.dropWhile p).head? = some c → (!p c) = true := by
    intro c hc
    rw [hc] at hfirst
    rw [hfirst]
    rfl
  have hsplit := indicesOf_head? hkept hrest
  rwa [List.takeWhile_append_dropWhile] at hsplit

theorem starts_length (n : Nat) (parts : List Text) : (starts n parts).length = parts.length := by
  induction parts generalizing n with
  | nil => rfl
  | cons part parts ih => exact congrArg (· + 1) (ih _)

theorem starts_getElem? (n k : Nat) (parts : List Text) :
    (starts n parts)[k]? = if k < parts.length then some (n + bytes (parts.take k).flatten) else none := by
  induction parts generalizing n k with
  | nil => simp [starts]
  | cons part parts ih =>
    cases k with
    | zero => simp [starts, bytes]
    | succ k => simp [starts, ih, bytes_append, Nat.add_assoc]

end Promptline.Text
