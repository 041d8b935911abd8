import DesignMarkup.Files.Path
import DesignMarkup.Number

/-!
# `Trigger` — from file events to runs

A trigger hears of changes to files and decides which of them start a run: changes to JSON files, of one
place if a target is set, and none too soon after the run before.

## Contents

* `Event`, `Event.path?`: what happens to files, and the path that counts;
* `Trigger`, `Trigger.concerns`: what a trigger listens to;
* `Trigger.isTooSoon`, `Trigger.fire?`: when it starts a run.
-/

namespace DesignMarkup

/-! ## Events -/

/-- What happened to a file or folder. -/
inductive Change where
  | modified
  | created
  | moved (destination : String)
  | deleted
  deriving DecidableEq, Repr

/-- An event of the file system. -/
structure Event where
  change : Change
  source : String
  isFolder : Bool
  deriving DecidableEq, Repr

/-- The path at which a file has new content: where it was changed or made, or where it was moved to. -/
def Event.path? (e : Event) : Option String :=
  if e.isFolder then none
  else
    match e.change with
    | .modified | .created => some e.source
    | .moved destination => some destination
    | .deleted => none

/-! ## Triggers -/

/-- A trigger: its target, the least time between two runs, and the time of the last run. -/
structure Trigger where
  target : Option Place
  pause : Number
  last : Number
  deriving DecidableEq

/-- Zero as a double. -/
def zeroTime : Number :=
  .double (Binary64.zero false)

/-- One second. -/
def defaultPause : Number :=
  .double (Binary64.round false 1 1)

namespace Trigger

/-- A trigger before its first run; an empty target is none. -/
def start (folder : List String) (target : Option String) (pause : Number) : Trigger where
  target := (target.filter (· != "")).map (Place.ofText folder)
  pause := pause
  last := zeroTime

/-- The path is that of a JSON file. -/
def isJsonPath (path : String) : Bool :=
  ".json".toList.isSuffixOf path.toList

/-- The trigger listens to changes at a path read in a folder. -/
def concerns (t : Trigger) (folder : List String) (path : String) : Bool :=
  isJsonPath path && t.target.all (· == Place.ofText folder path)

/-- The time since the last run is shorter than the pause. -/
def isTooSoon (t : Trigger) (now : Number) : Except RoundingError Bool := do
  let since ← now.sub t.last
  return since.lt t.pause

/-- **The path of the run that an event starts**, if it starts one, and the trigger after it. -/
def fire? (t : Trigger) (folder : List String) (now : Number) (e : Event) :
    Except RoundingError (Option (String × Trigger)) :=
  match e.path? with
  | none => .ok none
  | some path =>
    if t.concerns folder path then do
      if ← t.isTooSoon now then return none
      else return some (path, { t with last := now })
    else .ok none

/-- The line about the run that a change starts. -/
def changeLine (path : String) : String :=
  "\n🔄 File changed: " ++ path

end Trigger

end DesignMarkup
