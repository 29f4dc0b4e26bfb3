/-!
Texts: white space, which is what has the Unicode property White_Space, and offsets, which count the
bytes of the UTF-8 form. An offset that falls inside a character is moved down to where that
character starts.
-/

set_option autoImplicit false

namespace Promptline

/-- A text is the list of its characters. -/
abbrev Text := List Char

namespace Text

def inRanges : List (Nat × Nat) → Nat → Bool
  | [], _ => false
  | (low, high) :: rest, n => if n < low then false else n ≤ high || inRanges rest n

def whiteSpace : List (Nat × Nat) :=
  [(0x9, 0xD), (0x20, 0x20), (0x85, 0x85), (0xA0, 0xA0), (0x1680, 0x1680), (0x2000, 0x200A),
    (0x2028, 0x2029), (0x202F, 0x202F), (0x205F, 0x205F), (0x3000, 0x3000)]

def isSpace (c : Char) : Bool := inRanges whiteSpace c.toNat

def leadingSpace (t : Text) : Text := t.takeWhile isSpace

def trimStart (t : Text) : Text := t.dropWhile isSpace

def trimEnd (t : Text) : Text := (t.reverse.dropWhile isSpace).reverse

def trim (t : Text) : Text := trimEnd (trimStart t)

def isBlank (t : Text) : Bool := t.all isSpace

theorem leadingSpace_append_trimStart (t : Text) : leadingSpace t ++ trimStart t = t :=
  List.takeWhile_append_dropWhile

def bytes : Text → Nat
  | [] => 0
  | c :: t => c.utf8Size + bytes t

/-- The longest beginning of a text that takes up at most `n` bytes. -/
def takeBytes : Nat → Text → Text
  | _, [] => []
  | n, c :: t => if c.utf8Size ≤ n then c :: takeBytes (n - c.utf8Size) t else []

theorem bytes_append (s t : Text) : bytes (s ++ t) = bytes s + bytes t := by
  induction s with
  | nil => simp [bytes]
  | cons c s ih => simp [bytes, ih, Nat.add_assoc]

theorem bytes_takeBytes_le (n : Nat) (t : Text) : bytes (takeBytes n t) ≤ n := by
  induction t generalizing n with
  | nil => simp [takeBytes, bytes]
  | cons c t ih =>
    simp only [takeBytes]
    split
    · rename_i h
      have := ih (n - c.utf8Size)
      simp only [bytes]
      omega
    · simp [bytes]

theorem takeBytes_isPrefix (n : Nat) (t : Text) : takeBytes n t <+: t := by
  induction t generalizing n with
  | nil => simp [takeBytes]
  | cons c t ih =>
    simp only [takeBytes]
    split
    · exact List.cons_prefix_cons.mpr ⟨rfl, ih _⟩
    · exact List.nil_prefix

end Text
end Promptline
