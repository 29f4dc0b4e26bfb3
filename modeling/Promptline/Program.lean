import Promptline.Log.Destination
import Promptline.Session.Run

set_option autoImplicit false

namespace Promptline.Program

open Session

structure Options where
  prompt : Text
  indentWidth : Nat
  logs : Bool
  level : Log.Level
  deriving DecidableEq

def Options.standard : Options := ⟨Config.standard.prompts.first, 2, false, .debug⟩

inductive OptionError
  | unknown (argument : String)
  | missingValue (option : String)
  | badValue (option value : String)
  deriving DecidableEq

def OptionError.message : OptionError → String
  | unknown argument => "unexpected argument " ++ argument
  | missingValue option => "a value is required for " ++ option
  | badValue option value => "invalid value " ++ value ++ " for " ++ option

def usage : String :=
  "Usage: repl [--prompt PROMPT] [--indent-width N] [-l | --enable-logging]\n" ++
  "            [--log-level error|warn|info|debug|trace]"

def levelOf? (name : String) : Option Log.Level :=
  match name with
  | "error" => some .error
  | "warn" => some .warn
  | "info" => some .info
  | "debug" => some .debug
  | "trace" => some .trace
  | _ => none

def separate (argument : String) : List String :=
  match argument.toList with
  | '-' :: '-' :: rest =>
    match Text.split '=' rest with
    | name :: value :: more =>
      [String.ofList ('-' :: '-' :: name),
        String.ofList ((['='] : Text).intercalate (value :: more))]
    | _ => [argument]
  | _ => [argument]

def parseSeparate (o : Options) : List String → Except OptionError Options
  | [] => .ok o
  | "-l" :: rest | "--enable-logging" :: rest => parseSeparate { o with logs := true } rest
  | "--prompt" :: value :: rest => parseSeparate { o with prompt := value.toList } rest
  | "--indent-width" :: value :: rest =>
    match value.toNat? with
    | some indentWidth => parseSeparate { o with indentWidth } rest
    | none => .error (.badValue "--indent-width" value)
  | "--log-level" :: value :: rest =>
    match levelOf? value with
    | some level => parseSeparate { o with level } rest
    | none => .error (.badValue "--log-level" value)
  | argument :: _ =>
    .error <| if ["--prompt", "--indent-width", "--log-level"].contains argument
      then .missingValue argument else .unknown argument

def parse (arguments : List String) : Except OptionError Options :=
  parseSeparate .standard (arguments.flatMap separate)

def Options.setup (o : Options) : Setup :=
  ⟨(Config.standard.withPrompt o.prompt).withIndentWidth o.indentWidth, .plain, fun _ => false⟩

def Options.log (o : Options) : Log.Config :=
  if o.logs then .toFile none (some o.level) else ⟨.nothing, some o.level⟩

def evaluate (promptNumber : Nat) (t : Text) : Text :=
  ("[" ++ toString promptNumber ++ "] read " ++ toString (Text.countLines t) ++ " line(s), "
    ++ toString t.length ++ " char(s)").toList

/-- Applies key presses, evaluating what is submitted, up to the end of the session, which is
reported as `true`. -/
def respond (setup : Setup) : List Keys.KeyPress → Act Bool
  | [] => pure false
  | press :: rest => do
    match ← handleKey setup press with
    | none => respond setup rest
    | some .close => pure true
    | some (.command t) =>
      print setup (evaluate (← get).editor.promptNumber t)
      showPrompt setup true
      respond setup rest

end Promptline.Program
