import Promptline.Log.Notice
import Promptline.Text.Lines

set_option autoImplicit false

namespace Promptline.Log

namespace Path

def parts (path : Text) : List Text :=
  (Text.split '/' path).filter fun part => part != [] && part != ['.']

def fileName? (path : Text) : Option Text :=
  (parts path).getLast?.filter (· != ['.', '.'])

def isAbsolute (path : Text) : Bool := path.head? = some '/'

/-- The way down from a directory, with each step up taking back the step before it; `none` where it
leaves the directory. -/
def descend? : List Text → List Text → Option (List Text)
  | taken, [] => some taken.reverse
  | taken, part :: rest =>
    if part = ['.', '.'] then
      match taken with
      | [] => none
      | _ :: outer => descend? outer rest
    else descend? (part :: taken) rest

def withinDirectory? (path : Text) : Option Text :=
  if isAbsolute path then none
  else (descend? [] (parts path)).map fun below => (['/'] : Text).intercalate below

end Path

inductive Display
  | stdout
  | stderr
  deriving DecidableEq

def Display.name : Display → String
  | .stdout => "Stdout"
  | .stderr => "Stderr"

inductive Writer
  | nothing
  | display (d : Display)
  | file (path : Text)
  | displayAndFile (d : Display) (path : Text)
  deriving DecidableEq

namespace Writer

def display? : Writer → Option Display
  | display d | displayAndFile d _ => some d
  | nothing | file _ => none

def file? : Writer → Option Text
  | file path | displayAndFile _ path => some path
  | nothing | display _ => none

end Writer

def defaultFileName : Text := "repl_editor.log".toList

structure Config where
  writer : Writer
  threshold : Threshold
  deriving DecidableEq

namespace Config

def toFile (path : Option Text) (threshold : Threshold) : Config :=
  ⟨.file (path.getD defaultFileName), threshold⟩

def toDisplay (d : Display) (threshold : Threshold) : Config := ⟨.display d, threshold⟩

end Config

inductive Error
  | noFileName (path : Text)
  deriving DecidableEq

def Error.message : Error → Text
  | noFileName path => "Log file path ".toList ++ path ++ " has no file name.".toList

inductive Layer
  | filter (t : Threshold)
  | display (d : Display)
  | file (path : Text)
  deriving DecidableEq

def Config.layers (c : Config) : Except Error (List Layer) :=
  let filter := Layer.filter c.threshold
  let displays := c.writer.display?.toList.map Layer.display
  match c.writer.file? with
  | none => .ok (filter :: displays)
  | some path =>
    if (Path.fileName? path).isSome then .ok (filter :: displays ++ [.file path])
    else .error (.noFileName path)

/-- The log file with its lines, if one is made. It is made even when nothing is written. -/
def Config.files (c : Config) (notices : List Notice) : List (Text × List String) :=
  match c.layers with
  | .error _ => []
  | .ok layers =>
    layers.filterMap fun
      | .file path => (Path.withinDirectory? path).map (·, writtenLines c.threshold notices)
      | _ => none

/-- Logging for the whole process can always be turned off; otherwise the layers have to be made. -/
def Config.install (c : Config) : Except Error Unit :=
  if c.writer = .nothing then .ok () else c.layers.map fun _ => ()

end Promptline.Log
