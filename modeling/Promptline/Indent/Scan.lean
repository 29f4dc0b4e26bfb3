import Promptline.Indent.Frame
import Promptline.Indent.Token

set_option autoImplicit false

namespace Promptline.Indent

/-- The depth after the tokens read so far, and the depths outside the blocks that were opened on
this line, innermost first. -/
structure Nesting where
  running : Int
  bases : List Int
  deriving DecidableEq

namespace Nesting

/-- A terminator closes the innermost block of this line or, where it has none, of the lines
before. -/
def apply (frames : List Frame) (n : Nesting) : Kind → Nesting
  | .openDouble => ⟨n.running + 2, n.running :: n.bases⟩
  | .openSingle => ⟨n.running + 1, n.running :: n.bases⟩
  | .softUnindent => n
  | .sharing => { n with running := n.running - 1 }
  | .closeParen => ⟨n.running - 1, n.bases.tail⟩
  | .terminator =>
    match n.bases with
    | base :: outer => ⟨base, outer⟩
    | [] => ⟨enclosingLevel frames n.running, []⟩

def lineDepth (n : Nesting) (inherited : Int) : Kind → Int
  | .openDouble | .openSingle => inherited
  | .softUnindent => inherited - 1
  | .sharing => inherited - 2
  | .closeParen | .terminator => n.running

end Nesting

def frameOf (frames : List Frame) (ts : List Token) : Frame :=
  let inherited := inheritedLevel frames
  let start : Nesting := ⟨inherited, []⟩
  let kinds := ts.filterMap Token.kind?
  let level := (kinds.foldl (Nesting.apply frames) start).running
  let depth :=
    match ts with
    | .rule kind :: _ => (start.apply frames kind).lineDepth inherited kind
    | _ => inherited
  { kind := kinds.head?, offset := depth - level, level }

def frameFor (table : Table) (frames : List Frame) (line : Text) : Frame :=
  frameOf frames (tokens table line)

def advance (table : Table) (frames : List Frame) (line : Text) : List Frame :=
  frames ++ [frameFor table frames line]

def scan (table : Table) (lines : List Text) : List Frame := lines.foldl (advance table) []

theorem scan_append_singleton (table : Table) (lines : List Text) (line : Text) :
    scan table (lines ++ [line]) = advance table (scan table lines) line := by
  simp [scan, List.foldl_append]

theorem scan_length (table : Table) (lines : List Text) :
    (scan table lines).length = lines.length := by
  have h : ∀ frames,
      (lines.foldl (advance table) frames).length = frames.length + lines.length := by
    induction lines with
    | nil => simp
    | cons line rest ih => intro frames; simp [ih, advance]; omega
  simpa [scan] using h []

end Promptline.Indent
