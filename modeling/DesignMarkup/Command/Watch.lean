import DesignMarkup.Command.Convert
import DesignMarkup.Trigger

/-!
# `Command.Watch` — converting again at every change

The command converts a file at once and then each time its trigger is set off, until it is stopped. A run
that fails for its files or its data is told of, and watching goes on. Any other failure ends the command in the
first run. Later it ends what handles the events: the observer on a thread of its own, after which the command
sleeps on and hears of nothing.

## Contents

* `WatchArgs`, `Task`: the arguments, and what a run does;
* `runTask`: a run;
* `Moment`, `Observer`, `Watching`: what happens while the command sleeps, who hears of it, and the state of the
  command;
* `handleEvent`, `tell`, `passMoment`, `passAll`: the time between the runs;
* `WatchOutcome`, `watchCommand`: the command.
-/

namespace DesignMarkup

/-! ## Runs -/

/-- The arguments of the command. -/
structure WatchArgs where
  input : String
  output : Option String
  title : Option String
  deriving DecidableEq, Repr

/-- What a run converts. -/
structure Task where
  input : String
  folder : Json
  options : Options

/-- The line about a failed run. -/
def runFailedLine (message : String) : String :=
  "   ⚠️  Conversion failed: " ++ message

/-- What remains to be done after a failed run: trouble with files and faulty data are told of. -/
def runFailed : Failure → Command Unit
  | .file (.fault f path) => talking (say (runFailedLine (FileError.fault f path).message))
  | .data e => talking (say (runFailedLine e.message))
  | e => throw e

/-- **A run**: the file is converted and the paths written are printed. -/
def runTask (t : Task) : Command Unit :=
  tryCatch
    (do
      let written ← convertFile t.input t.folder t.options "index.html"
      talking (reportPaths written))
    runFailed

/-! ## Time -/

/-- What happens while the command sleeps: the clock may move on, files are written and taken away, and
at most one event is told. -/
structure Moment where
  clock : Option Number
  writes : List (String × ByteArray)
  removals : List String
  event : Option Event

/-- What the command does with the watching of files and time. -/
inductive Signal where
  | schedule (folder : String) (recursive : Bool)
  | start
  | slept (seconds : Nat)
  | stop
  | join
  deriving DecidableEq, Repr

/-- Where events are handled. It is up to the library that watches the files, which has a thread for it. -/
inductive Observer where
  /-- Within the sleep of the command, where a stand-in for the library tells of them. The command fails if their
  handling does. -/
  | within
  /-- On a thread apart, which ends with the first failure. The command does not hear of it. -/
  | apart (ended : Option Failure)

/-- Events are handled still. -/
def Observer.isAlive : Observer → Bool
  | .within | .apart none => true
  | .apart (some _) => false

/-- The state of the command. -/
structure Watching where
  world : World
  clock : Number
  trigger : Trigger
  signals : List Signal
  observer : Observer

/-- A computation on the state of the command, which outlives a failure. -/
abbrev Watched := ExceptT Failure (StateM Watching)

/-- A command within. -/
def within {α : Type} (m : Command α) : Watched α :=
  fun x =>
    let (r, w) := m.run x.world
    (r, { x with world := w })

/-- The state with one more signal. -/
def Watching.note (x : Watching) (s : Signal) : Watching :=
  { x with signals := x.signals ++ [s] }

/-- A signal is noted. -/
def signal (s : Signal) : Watched Unit :=
  modify fun x => x.note s

/-- An event reaches the trigger, which may start a run. -/
def handleEvent (t : Task) (e : Event) : Watched Unit := do
  let x ← get
  match x.trigger.fire? x.world.files.workingFolder x.clock e with
  | .error r => throw (.clock r)
  | .ok none => return ()
  | .ok (some (path, trigger)) => do
    set { x with trigger }
    within do
      talking (say (Trigger.changeLine path))
      runTask t

/-- An event is told to the observer. One that runs apart keeps a failure to itself and ends. -/
def tell (t : Task) (e : Event) : Watched Unit := do
  match (← get).observer with
  | .within => handleEvent t e
  | .apart none =>
    tryCatch (handleEvent t e) fun failure =>
      modify fun x => { x with observer := .apart (some failure) }
  | .apart (some _) => return ()

/-- The files after a moment in which no event is handled. -/
def Moment.bring (m : Moment) (s : Store) : Store :=
  m.removals.foldl (fun s p => s.remove (Path.read p)) (s.seed m.writes)

/-- The clock and the files of a moment. -/
def arrange (m : Moment) (x : Watching) : Watching :=
  { x with
    clock := m.clock.getD x.clock
    world := { x.world with files := m.bring x.world.files } }

/-- A moment passes: what it brings happens, and then the command has slept for a second. -/
def passMoment (t : Task) (m : Moment) : Watched Unit := do
  modify (arrange m)
  match m.event with
  | some e => tell t e
  | none => pure ()
  signal (.slept 1)

/-- All moments pass, and then the command is stopped. -/
def passAll (t : Task) : List Moment → Watched Unit
  | [] => do
    within (talking (say "\n👋 Stopping watch..."))
    signal .stop
  | m :: rest => do
    passMoment t m
    passAll t rest

/-- Watching from the start until the end, however it comes. -/
def watchThrough (t : Task) (folder : String) (moments : List Moment) : Watched Unit := do
  signal (.schedule folder false)
  signal .start
  tryCatch (passAll t moments) fun e => do
    signal .join
    throw e
  signal .join

/-! ## The command -/

/-- The task of the command. -/
def WatchArgs.task (a : WatchArgs) (c : Config) : Task :=
  ⟨a.input, c.outputFolder a.output, c.options { title := a.title }⟩

/-- What is printed before the first run. -/
def sayWatching (t : Task) : Talking Unit := do
  say ("👀 Watching for changes in '" ++ t.input ++ "'...")
  say ("   Output: " ++ t.folder.text)
  say "   Press Ctrl+C to stop."

/-- What is done before anything is watched. -/
def firstRun (t : Task) : Command Unit := do
  talking (sayWatching t)
  runTask t

/-- The folder that is watched, as seen from the working folder. -/
def watchedFolder (folder : List String) (input : String) : String :=
  (Place.ofText folder input).parent.relativeTo folder

/-- The trigger of a watch before its first moment. -/
def WatchArgs.trigger (a : WatchArgs) (folder : List String) : Trigger :=
  .start folder (some a.input) defaultPause

/-- The state of a watch before its first moment. -/
def WatchArgs.opening (a : WatchArgs) (o : Observer) (w : World) : Watching where
  world := w
  clock := zeroTime
  trigger := a.trigger w.files.workingFolder
  signals := []
  observer := o

/-- What a watch comes to: its code, the world and the signals, and the observer in the end. -/
structure WatchOutcome where
  result : Except Failure Nat
  world : World
  signals : List Signal
  observer : Observer

/-- **The command** that watches a file with an observer, through the given moments. -/
def watchCommand (o : Observer) (a : WatchArgs) (c : Config) (moments : List Moment) (w : World) :
    WatchOutcome :=
  match (firstRun (a.task c)).run w with
  | (.error e, w) => ⟨.error e, w, [], o⟩
  | (.ok _, w) =>
    let folder := watchedFolder w.files.workingFolder a.input
    let (r, x) := (watchThrough (a.task c) folder moments).run (a.opening o w)
    ⟨r.map fun _ => 0, x.world, x.signals, x.observer⟩

end DesignMarkup
