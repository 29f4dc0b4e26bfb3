import Promptline.Display.Layout

set_option autoImplicit false

namespace Promptline.Session

structure Config where
  prompts : Display.Prompts
  /-- One level of indentation. -/
  indentUnit : Text
  /-- How long a press of Tab waits for a second one. -/
  tabWindow : Nat
  /-- How long a press of the copy key waits for a second one. -/
  copyWindow : Nat
  historyCap : Option Nat
  deriving DecidableEq

namespace Config

def standard : Config := ⟨⟨['>', ' '], [' ', ' ']⟩, [' ', ' '], 200, 300, none⟩

def withPrompt (c : Config) (t : Text) : Config :=
  { c with prompts := { c.prompts with first := t } }

def withContinuation (c : Config) (t : Text) : Config :=
  { c with prompts := { c.prompts with continuation := t } }

def withIndentWidth (c : Config) (width : Nat) : Config :=
  { c with indentUnit := List.replicate width ' ' }

end Config

/-- Styles a line for display. The result may hold escape sequences. -/
abbrev Presenter := Text → Text

namespace Presenter

def plain : Presenter := id

def enclosed (left right : Text) : Presenter := fun line => left ++ line ++ right

def bold : Presenter := enclosed "\x1b[1m".toList "\x1b[0m".toList

def link (target : Text) : Presenter :=
  enclosed ("\x1b]8;;".toList ++ target ++ ['\x07']) "\x1b]8;;\x1b\\".toList

def brackets : Presenter := enclosed ['['] [']']

end Presenter
end Promptline.Session
