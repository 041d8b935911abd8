import DesignMarkup.Api
import DesignMarkup.Argument
import DesignMarkup.Config
import DesignMarkup.Conversion
import DesignMarkup.Design.Reader
import DesignMarkup.Files.Store
import DesignMarkup.Text.Lines

/-!
# `Command` — what commands work on

A command prints lines, asks the service, and reads and writes files. The first two make up the talk of
a command; a computation that only talks cannot touch a file.

## Contents

* `Failure`: what can end a command early;
* `Talk`, `Talking`, `say`, `ask`: printing and asking;
* `World`, `Command`: talk and files together;
* `loadNode`, `loadConfig`, `configFor`: designs and configurations from files.
-/

namespace DesignMarkup

/-! ## Failures -/

/-- What can end a command early. -/
inductive Failure where
  | conversion (e : ConversionError)
  /-- The times of two events cannot be compared. -/
  | clock (e : RoundingError)
  | data (e : DataError)
  | lookup (e : LookupError)
  | api (e : ApiError)
  | file (e : FileError)
  | notUtf8 (e : Text.Utf8Error)
  | notJson (e : Json.ReadError)
  /-- A value that is not a text stands where a path belongs. -/
  | badPath (value : Json)

/-- Failed look-ups count as faulty data where a name was not found. -/
def Failure.ofLookup : LookupError → Failure
  | .notFound e => .data e
  | e => .lookup e

/-! ## Talk -/

/-- What a command has printed, and its traffic with the service. -/
structure Talk where
  printed : String
  exchange : Exchange

/-- A computation that prints and asks; what it has printed and asked outlives a failure. -/
abbrev Talking := ExceptT Failure (StateM Talk)

/-- Prints a text. -/
def print (s : String) : Talking Unit :=
  modify fun t => { t with printed := t.printed ++ s }

/-- Prints a line. -/
def say (line : String) : Talking Unit :=
  print (line ++ "\n")

/-- Asks the service. -/
def ask {α : Type} (m : Client.Asking α) : Talking α :=
  fun t =>
    let (r, x) := m.run t.exchange
    (r.mapError .api, { t with exchange := x })

/-- A result as a step that prints nothing. -/
def orFail {ε α : Type} (failure : ε → Failure) (r : Except ε α) : Talking α :=
  fun t => (r.mapError failure, t)

/-! ## The world of a command -/

/-- The files and the talk. -/
structure World where
  files : Store
  talk : Talk

/-- A computation on files and talk; its changes outlive a failure. -/
abbrev Command := ExceptT Failure (StateM World)

/-- Talk as a part of a command. -/
def talking {α : Type} (m : Talking α) : Command α :=
  fun w =>
    let (r, t) := m.run w.talk
    (r, { w with talk := t })

/-- Writing as a part of a command. -/
def filing {α : Type} (m : Filing α) : Command α :=
  fun w =>
    let (r, s) := m.run w.files
    (r.mapError .file, { w with files := s })

/-- A look at the files. -/
def reading {α : Type} (f : Store → Except Failure α) : Command α :=
  fun w => (f w.files, w)

/-- Prints the paths of written files. -/
def reportPaths : List String → Talking Unit
  | [] => return ()
  | p :: rest => do
    say ("   📄 " ++ p)
    reportPaths rest

/-! ## Files that commands read -/

/-- The text of a file with line feeds for all line ends. -/
def textOf (bytes : ByteArray) : Except Text.Utf8Error (List Char) := do
  return Text.unifyLineEnds (← Text.decodeUtf8 bytes).toList

/-- The node that file data are about. -/
def nodeOf (data : Json) : Except DataError Node :=
  match Lookup.findMainNode data with
  | some main => if main.isTruthy then Node.read main else .error .noNode
  | none => .error .noNode

/-- **A design from a file.** A file that is no text or no JSON counts as faulty data. -/
def loadNode (s : Store) (path : String) : Except Failure Node := do
  let bytes ← (s.read (Path.read path)).mapError .file
  let text ← (textOf bytes).mapError fun e => .data (.fileNotUtf8 path e)
  let data ← (Json.readChars text).mapError fun e => .data (.fileNotJson path e)
  (nodeOf data).mapError .data

/-- The path of the configuration unless another is given. -/
def defaultConfigPath : String :=
  "figma-bootstrap.config.json"

/-- The line about a configuration that is not an object. -/
def notObjectLine (path : String) : String :=
  Config.warningLine ("'" ++ path ++ "' 格式錯誤，應為 JSON 物件，回傳空設定。")

/-- **The configuration in a file**, with what is printed about it; no file is an empty
configuration. -/
def loadConfig (s : Store) (path : String) : Except Failure (Config × String) := do
  let p := Path.read path
  if ← (s.has p).mapError .file then
    let bytes ← (s.read p).mapError .file
    let text ← (textOf bytes).mapError .notUtf8
    match ← (Json.readChars text).mapError .notJson with
    | .object fields =>
      let c : Config := fields
      return (c, c.warningText)
    | _ => return ([], notObjectLine path)
  else return ([], "")

/-- The configuration in the file that a command line names; it must name one. -/
def configFor (s : Store) : Argument → Except Failure (Config × String)
  | .text path => loadConfig s path
  | .empty => .error (.badPath (.array []))

end DesignMarkup
