import Mathlib.Algebra.Ring.Nat
import Promptline.Proofs.Indent.Closers

/-!
Readiness and the balance of blocks. A guess by depths alone sees the blocks that a line leaves open
as one group, which a terminator on a later line closes as a whole. A text whose blocks are all closed
is ready all the same, and one that is ready has none open but those closed early in this way.
-/

set_option autoImplicit false

namespace Promptline.Indent

/-- An open block by the units of depth that it has left. -/
inductive Block
  | single
  | double
  deriving DecidableEq

namespace Block

def units : Block → Nat
  | single => 1
  | double => 2

def depth (blocks : List Block) : Nat := (blocks.map units).sum

def edges (floor : Int) : List (List Block) → List Int
  | [] => []
  | _ :: outer => (floor + depth outer.flatten) :: edges floor outer

variable {level : Int} {ends : List Int} {blocks lost : List Block} {grouped : List (List Block)}

end Block

/-- The open blocks as a line is read, innermost first: those opened on it, and the ones of earlier
lines in groups between the depths at which lines ended. There are `early` openers more that have no
closer yet and do not show in the depth: a terminator has closed their blocks along with the one it was
for, or no terminator can find them. -/
structure Reading where
  own : List Block
  grouped : List (List Block)
  early : Nat
  /-- The depth outside all blocks. -/
  floor : Int
  deriving DecidableEq

namespace Reading

def base (r : Reading) : Int := r.floor + Block.depth r.grouped.flatten

def level (r : Reading) : Int := r.base + Block.depth r.own

def count (r : Reading) : Nat := r.own.length + r.grouped.flatten.length + r.early

/-- A terminator closes the innermost block of its line or, where it has none, the innermost group. A
parenthesis closes a block of one unit; for a block that was closed early it takes a unit of depth. A
shared part takes one of the two units of its block. -/
def read : Reading → Kind → Option Reading
  | ⟨own, grouped, early, floor⟩, .openDouble => some ⟨.double :: own, grouped, early, floor⟩
  | ⟨own, grouped, early, floor⟩, .openSingle => some ⟨.single :: own, grouped, early, floor⟩
  | r, .softUnindent => some r
  | ⟨.double :: own, grouped, early, floor⟩, .sharing => some ⟨.single :: own, grouped, early, floor⟩
  | ⟨[], (.double :: inner) :: outer, early, floor⟩, .sharing =>
    some ⟨[], (.single :: inner) :: outer, early, floor⟩
  | ⟨.single :: own, grouped, early, floor⟩, .closeParen => some ⟨own, grouped, early, floor⟩
  | ⟨[], [.single] :: outer, early, floor⟩, .closeParen => some ⟨[], outer, early, floor⟩
  | ⟨[], (.single :: b :: inner) :: outer, early, floor⟩, .closeParen =>
    some ⟨[], (b :: inner) :: outer, early, floor⟩
  | ⟨[], (.double :: inner) :: outer, early + 1, floor⟩, .closeParen =>
    some ⟨[], (.single :: inner) :: outer, early, floor⟩
  | ⟨[], [], early + 1, floor⟩, .closeParen => some ⟨[], [], early, floor - 1⟩
  | ⟨_ :: own, grouped, early, floor⟩, .terminator => some ⟨own, grouped, early, floor⟩
  | ⟨[], (_ :: inner) :: outer, early, floor⟩, .terminator =>
    some ⟨[], outer, early + inner.length, floor⟩
  | ⟨[], [], early + 1, 0⟩, .terminator => some ⟨[], [], early, 0⟩
  | _, _ => none

variable {r r' : Reading} {kind : Kind} {kinds : List Kind}

end Reading

variable {frames : List Frame} {floor : Int} {inner inner' : List Block} {outer : List (List Block)}
  {r r' : Reading} {kind : Kind} {kinds : List Kind}

/-- Below the depth of these groups, the open blocks of `frames` rise from the depths around them. -/
def Stands (frames : List Frame) (floor : Int) (grouped : List (List Block)) : Prop :=
  (inheritedLevel frames :: feet frames).dropWhile (floor + Block.depth grouped.flatten ≤ ·) =
    Block.edges floor grouped

namespace Stands

theorem lower {grouped : List (List Block)} (h : Stands frames floor grouped) {level : Int}
    (hlevel : level ≤ floor + Block.depth grouped.flatten) :
    (inheritedLevel frames :: feet frames).dropWhile (level ≤ ·) =
      (Block.edges floor grouped).dropWhile (level ≤ ·) := by
  rw [← dropWhile_dropWhile_le hlevel, h]

theorem sink (h : Stands frames floor []) : Stands frames (floor - 1) [] := by
  have hbelow : floor - 1 + Block.depth ([] : List (List Block)).flatten ≤
      floor + Block.depth ([] : List (List Block)).flatten := by
    omega
  rw [Stands, h.lower hbelow]
  rfl

/-- The walk back from inside a group ends right around it. -/
theorem enclosingLevel (h : Stands frames floor (inner :: outer)) :
    Indent.enclosingLevel frames (floor + Block.depth (inner :: outer).flatten) =
      floor + Block.depth outer.flatten := by
  rw [enclosingLevel_eq, h]
  rfl

end Stands

namespace Reading

def basesOf (around : Int) : List Block → List Int
  | [] => []
  | _ :: own => (around + Block.depth own) :: basesOf around own

def nesting (r : Reading) : Nesting := ⟨r.level, basesOf r.base r.own⟩

structure Describes (r : Reading) (frames : List Frame) : Prop where
  own : r.own = []
  level : inheritedLevel frames = r.base
  feet : feet frames = Block.edges r.floor r.grouped

theorem Describes.stands (h : r.Describes frames) : Stands frames r.floor r.grouped := by
  have hsorted := feet_pairwise frames
  rw [h.level] at hsorted
  rw [Stands, ← h.feet, h.level, base, List.dropWhile_cons_of_pos (by simp)]
  exact dropWhile_eq_self_of_pairwise hsorted

end Reading

variable {t : Text}

end Promptline.Indent
