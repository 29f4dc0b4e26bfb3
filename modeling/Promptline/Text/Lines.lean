import Promptline.Text.Basic

/-!
Lines end at a line feed and nowhere else. `split` gives the pieces between separators, so a text
with `n` line feeds has `n + 1` lines; `splitLines` keeps each line feed at the end of its line and
has no entry for an empty last line.
-/

set_option autoImplicit false

namespace Promptline.Text

def split (separator : Char) : Text → List Text
  | [] => [[]]
  | c :: t =>
    if c = separator then [] :: split separator t
    else match split separator t with
      | [] => [[c]]
      | line :: rest => (c :: line) :: rest

def lines (t : Text) : List Text := split '\n' t

def splitLines : Text → List Text
  | [] => []
  | c :: t =>
    if c = '\n' then [c] :: splitLines t
    else match splitLines t with
      | [] => [[c]]
      | line :: rest => (c :: line) :: rest

def countLines (t : Text) : Nat := t.count '\n' + 1

def joinLines (ls : List Text) : Text := (['\n'] : Text).intercalate ls

/-- A line break of a terminal or a clipboard, carriage return alone or followed by a line feed,
becomes one line feed. -/
def normalizeNewlines : Text → Text
  | '\r' :: '\n' :: t => '\n' :: normalizeNewlines t
  | c :: t => (if c = '\r' then '\n' else c) :: normalizeNewlines t
  | [] => []

def splitAfterLines : Nat → Text → Text × Text
  | 0, t => ([], t)
  | _ + 1, [] => ([], [])
  | n + 1, c :: t =>
    let (above, rest) := splitAfterLines (if c = '\n' then n else n + 1) t
    (c :: above, rest)

theorem splitLines_flatten (t : Text) : (splitLines t).flatten = t := by
  induction t with
  | nil => rfl
  | cons c t ih =>
    simp only [splitLines]
    split
    · simp [ih]
    · split
      · rename_i h
        rw [h] at ih
        simpa using ih
      · rename_i h
        rw [h] at ih
        simpa using ih

theorem split_length (separator : Char) (t : Text) :
    (split separator t).length = t.count separator + 1 := by
  induction t with
  | nil => rfl
  | cons c t ih =>
    by_cases h : c = separator
    · simp [split, h, ih]
    · simp only [split, if_neg h, List.count_cons_of_ne h]
      cases hs : split separator t with
      | nil => simp [hs] at ih
      | cons l ls => simpa [hs] using ih

end Promptline.Text
