import Promptline.Indent.Rule

set_option autoImplicit false

namespace Promptline.Indent

inductive Token
  | rule (kind : Kind)
  | other
  deriving DecidableEq

def Token.kind? : Token → Option Kind
  | .rule kind => some kind
  | .other => none

def afterString (quote : Char) : Text → Text
  | [] => []
  | [_] => []
  | c :: d :: t =>
    if c = '\\' then afterString quote t
    else if c = quote then d :: t
    else afterString quote (d :: t)

def afterOther : Text → Text
  | [] => []
  | c :: t =>
    if isIdentifierChar c then t.dropWhile isIdentifierChar
    else if c = '"' || c = '\'' then afterString c t
    else t

/-- The first token and what follows it; `none` at the end or at a comment. -/
def nextToken? (table : Table) (t : Text) : Option (Token × Text) :=
  match Text.trimStart t with
  | [] => none
  | c :: rest =>
    if c = '#' then none
    else match table.longestMatch? (c :: rest) with
      | some (kind, n) => some (.rule kind, (c :: rest).drop n)
      | none => some (.other, afterOther (c :: rest))

def readTokens (table : Table) : Nat → Text → List Token
  | 0, _ => []
  | limit + 1, t =>
    match nextToken? table t with
    | none => []
    | some (token, rest) => token :: readTokens table limit rest

/-- All tokens of a line: each of them takes up a character, unless a spelling of the table is
empty. -/
def tokens (table : Table) (line : Text) : List Token :=
  readTokens table line.length (Text.trim line)

end Promptline.Indent
