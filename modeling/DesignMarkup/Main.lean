import DesignMarkup.Program

/-!
# `Main` — the program on a real machine

The run itself is computed on a store. This module fills the store with the files that the run reads,
prints what was printed, and writes the files that have changed. It opens no connections, so a command
that asks the service gets no response.

## Contents

* `loadFile`, `saveChanges`: files between the machine and the store;
* `finish`: what a run comes to;
* `watchLive`: watching in real time;
* `main`.
-/

namespace DesignMarkup.Main

/-- The store with the file or the folder at a path on the machine, if there is one. -/
def loadFile (s : Store) (path : String) : IO Store := do
  try
    let content ← IO.FS.readBinFile path
    return s.seed [(path, content)]
  catch
    | .noFileOrDirectory .. => return s
    | .inappropriateType .. => return s.seedFolders [path]
    | e => throw e

/-- Writes the files that are new or changed. -/
def saveChanges (old new : Store) : IO Unit := do
  for (path, content) in new.changedSince old do
    IO.FS.createDirAll (Path.read path).parent.text
    IO.FS.writeBinFile path content

/-- The variables of the environment that matter. -/
def environment : IO Environment := do
  let mut env : Environment := []
  for name in ["FIGMA_API_KEY", "FIGMA_TOKEN"] do
    if let some value ← IO.getEnv name then
      env := env ++ [(name, value)]
  return env

/-- The files that an invocation reads. -/
def filesRead (i : Invocation) : List String :=
  let config := match i.config with
    | .text path => [path]
    | .empty => []
  config ++
    match i.action with
    | some (.convert a) => [a.input]
    | some (.watch a) => [a.input]
    | _ => []

/-- What is said of a number that cannot be rounded. -/
def roundingText : RoundingError → String
  | .notANumber => "cannot round a value that is not a number"
  | .infinite => "cannot round an infinite value"
  | .tooLarge => "cannot round a value beyond the range of doubles"

/-- What is said of a failure that no command tells of. -/
def failureText : Failure → String
  | .conversion (.rounding e) => roundingText e
  | .conversion (.depth .uncountable) => "cannot count the blanks of a line"
  | .conversion (.depth .tooLarge) => "cannot hold the blanks of a line"
  | .clock e => roundingText e
  | .data e => e.message
  | .lookup (.noFields v) => "a value has no fields: " ++ v.display
  | .lookup (.noElements v) => "a value has no elements: " ++ v.display
  | .lookup (.badName v) => "not a name: " ++ v.display
  | .lookup (.notFound e) => e.message
  | .api (.refused message _) => message
  | .api (.notJson e) => e.message
  | .api (.badIds v) => "the ids are not texts: " ++ v.display
  | .api .noResponse => "no response from " ++ Client.baseUrl
  | .file e => e.message
  | .notUtf8 e => e.message
  | .notJson e => e.message
  | .badPath v => "not a path: " ++ v.display

/-- The exit code of an ending, with the text for the error stream. -/
def closing : Ending → UInt32 × String
  | .code n => (n.toUInt32, "")
  | .exit n => (n.toUInt32, "")
  | .failed e => (1, failureText e ++ "\n")

/-- Prints and writes what a run comes to. -/
def finish (old : Store) (o : Outcome) : IO UInt32 := do
  IO.print o.output
  IO.eprint o.errors
  saveChanges old o.files
  let (code, text) := closing o.ending
  IO.eprint text
  return code

/-- What happens in one second: the clock moves on, and new content of the input is told as a change. -/
def nextMoment (t : Task) (x : Watching) : IO Moment := do
  IO.sleep 1000
  let now ← IO.monoMsNow
  let clock : Number := .double (Binary64.round false now 1000)
  let before := x.world.files.read (Path.read t.input)
  let files ← loadFile x.world.files t.input
  match files.read (Path.read t.input) with
  | .ok content =>
    let changed := match before with
      | .ok old => old != content
      | .error _ => true
    return {
      clock := some clock
      writes := [(t.input, content)]
      removals := []
      event := if changed then some ⟨.modified, t.input, false⟩ else none }
  | .error _ => return ⟨some clock, [], [], none⟩

/-- Watches until the program is stopped. What has ended the observer is said once. -/
partial def watchLive (t : Task) (x : Watching) : IO UInt32 := do
  let m ← nextMoment t x
  let quiet := { x with world := { x.world with talk := { x.world.talk with printed := "" } } }
  let (r, y) := (passMoment t m).run quiet
  IO.print y.world.talk.printed
  saveChanges x.world.files y.world.files
  match r with
  | .ok _ =>
    match y.observer with
    | .apart (some e) => if x.observer.isAlive then IO.eprint (failureText e ++ "\n")
    | _ => pure ()
    watchLive t y
  | .error e =>
    IO.eprint (failureText e ++ "\n")
    return 1

/-- Converts once and then watches. -/
def watch (a : WatchArgs) (c : Config) (w : World) : IO UInt32 := do
  let t := a.task c
  let (r, after) := (firstRun t).run w
  IO.print after.talk.printed
  saveChanges w.files after.files
  match r with
  | .error e =>
    IO.eprint (failureText e ++ "\n")
    return 1
  | .ok _ => watchLive t (a.opening (.apart none) after)

end DesignMarkup.Main

open DesignMarkup DesignMarkup.Main in
/-- The program. -/
def main (args : List String) : IO UInt32 := do
  let here := Path.components (← IO.currentDir).toString
  match Invocation.parse args with
  | .error e => finish (.empty here) ⟨.exit e.status, e.output, e.errors, .empty here, [], []⟩
  | .ok i =>
    let files ← (filesRead i).foldlM loadFile (.empty here)
    let s : Surroundings := {
      environment := ← environment
      files := files
      responses := []
      moments := []
      observer := .apart none }
    match i.action, configFor files i.config with
    | some (.watch a), .ok (c, printed) => watch a c (s.world printed)
    | _, _ => finish files (runInvocation i s)
