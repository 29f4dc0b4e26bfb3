import Promptline.Indent.Rule

/-!
The contribution of one line to the indentation. `level` is the depth that the next line inherits;
`offset` added to it is the depth of the line itself. Neither is bounded below.
-/

set_option autoImplicit false

namespace Promptline.Indent

structure Frame where
  /-- The first rule that matched on the line. -/
  kind : Option Kind
  offset : Int
  level : Int
  deriving DecidableEq

def Frame.depth (f : Frame) : Nat := (f.level + f.offset).toNat

def indentFor (frames : List Frame) (index : Nat) : Nat :=
  match frames[index]? with
  | some f => f.depth
  | none => 0

def inheritedLevel (frames : List Frame) : Int :=
  match frames.getLast? with
  | some f => f.level
  | none => 0

/-- The depth outside the innermost block that is open at `running`: the level of the nearest
earlier line that is shallower. -/
def enclosingLevel (frames : List Frame) (running : Int) : Int :=
  match frames.reverse.find? (fun f => f.level < running) with
  | some f => f.level
  | none => 0

/-- Lines that opened a block, innermost first, each with the level that its block rises from. -/
abbrev Openings := List (Nat × Int)

def Openings.step (index : Nat) (previous : Int) (f : Frame) (stack : Openings) : Openings :=
  let kept := stack.dropWhile fun opening => f.level ≤ opening.2
  if previous < f.level then (index, previous) :: kept else kept

def Openings.collect : Nat → Int → Openings → List Frame → Openings
  | _, _, stack, [] => stack
  | index, previous, stack, f :: rest =>
    collect (index + 1) f.level (Openings.step index previous f stack) rest

def openBlocks (frames : List Frame) : List Nat :=
  ((Openings.collect 0 0 [] frames).map Prod.fst).reverse

def isSubmitReady (frames : List Frame) : Bool :=
  (openBlocks frames).isEmpty && inheritedLevel frames ≤ 0

end Promptline.Indent
