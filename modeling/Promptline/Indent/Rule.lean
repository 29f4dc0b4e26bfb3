import Promptline.Text.Basic
import Promptline.Text.Lines

/-!
The rule table: which spellings of the block language open, close or shift a block. The rule that
matches the longest beginning of a text applies, and of equally long ones the first in the table.
-/

set_option autoImplicit false

namespace Promptline.Indent

/-- Hyphens continue an identifier, so the keyword `end` does not begin `end-of-list`. -/
def isIdentifierChar (c : Char) : Bool := c.isAlphanum || c = '_' || c = '-'

inductive Kind
  | openDouble
  | openSingle
  | softUnindent
  | sharing
  | closeParen
  | terminator
  deriving DecidableEq

def Kind.name : Kind → String
  | .openDouble => "OpenDouble"
  | .openSingle => "OpenSingle"
  | .softUnindent => "SoftUnindent"
  | .sharing => "Sharing"
  | .closeParen => "CloseParen"
  | .terminator => "End"

def shortestGap? (word : Text) : Text → Option Nat
  | [] => none
  | c :: t =>
    if !Text.isSpace c then none
    else if word.isPrefixOf t then some 1
    else (shortestGap? word t).map (· + 1)

def longestGap? (word : Text) : Text → Option Nat
  | [] => none
  | c :: t =>
    if !Text.isSpace c then none
    else match longestGap? word t with
      | some n => some (n + 1)
      | none => if word.isPrefixOf t then some 1 else none

/-- The most characters of a text that words can cover with a run of white space before each. The
run before the last word decides the length, so it is the longest one; every earlier run is the
shortest, which leaves white space to the later ones. -/
def coverAfterGap? : List Text → Text → Option Nat
  | [], _ => some 0
  | [word], t => (longestGap? word t).map (· + word.length)
  | word :: words, t =>
    match shortestGap? word t with
    | none => none
    | some gap =>
      (coverAfterGap? words (t.drop (gap + word.length))).map (gap + word.length + ·)

def coverLength? : List Text → Text → Option Nat
  | [], _ => some 0
  | word :: words, t =>
    if word.isPrefixOf t then
      (coverAfterGap? words (t.drop word.length)).map (word.length + ·)
    else none

def cutsIdentifier (t : Text) (n : Nat) : Bool :=
  (t.take n).getLast?.any isIdentifierChar && (t.drop n).head?.any isIdentifierChar

/-- How many characters of a text a spelling matches. Each space in it stands for a run of white
space. -/
def spellingLength? (spelling t : Text) : Option Nat :=
  (coverLength? (Text.split ' ' spelling) t).filter fun n => !cutsIdentifier t n

structure Rule where
  kind : Kind
  spellings : List Text
  deriving DecidableEq

def Rule.matchLength? (r : Rule) (t : Text) : Option Nat :=
  (r.spellings.filterMap (spellingLength? · t)).max?

abbrev Table := List Rule

namespace Table

def better (t : Text) (best : Option (Kind × Nat)) (r : Rule) : Option (Kind × Nat) :=
  match r.matchLength? t, best with
  | none, _ => best
  | some n, none => some (r.kind, n)
  | some n, some (kind, m) => if n ≤ m then some (kind, m) else some (r.kind, n)

def longestMatch? (table : Table) (t : Text) : Option (Kind × Nat) := table.foldl (better t) none

def standard : Table :=
  [⟨.openDouble, ["data".toList, "ask".toList, "cases".toList]⟩,
    ⟨.openSingle, ["fun".toList, "lam".toList, "method".toList, "if".toList, "when".toList,
      "for".toList, "check".toList, "examples".toList, "block".toList, "(".toList]⟩,
    ⟨.softUnindent, ["|".toList, "else if".toList, "else".toList, "where".toList]⟩,
    ⟨.sharing, ["sharing".toList]⟩,
    ⟨.closeParen, [")".toList]⟩,
    ⟨.terminator, ["end".toList, ";".toList]⟩]

end Table
end Promptline.Indent
