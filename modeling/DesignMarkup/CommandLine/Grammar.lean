/-!
# `CommandLine.Grammar` — what a command line may hold

## Contents

* `Effect`, `Switch`, `Positional`, `Grammar`: the parts;
* `Grammar.find?`: the switch with a name;
* `Switch.label`: a switch as messages name it.
-/

namespace DesignMarkup.CommandLine

/-- What a switch does. -/
inductive Effect where
  /-- Shows the help and ends the program. -/
  | help
  /-- Shows the version and ends the program. -/
  | version
  /-- Is set by its presence. -/
  | flag
  /-- Takes a value, which the help names so. -/
  | value (metavariable : String)
  deriving DecidableEq, Repr

/-- A switch: its names, of which the first is its key, what it does, whether it must be given, and its
description. -/
structure Switch where
  names : List String
  effect : Effect
  required : Bool := false
  description : String
  deriving DecidableEq, Repr

/-- A switch as messages name it. -/
def Switch.label (s : Switch) : String :=
  "/".intercalate s.names

/-- The key under which the switch is kept. -/
def Switch.key (s : Switch) : String :=
  s.names.headD ""

/-- The switch takes a value. -/
def Switch.takesValue (s : Switch) : Bool :=
  match s.effect with
  | .value _ => true
  | _ => false

/-- What may stand on a command line besides switches. -/
inductive Positional where
  /-- One value. -/
  | value (name description : String)
  /-- The name of a command, of which there are these with their descriptions, and all that follows. -/
  | command (choices : List (String × String))
  deriving DecidableEq, Repr

/-- What a command line may hold, and what its help says. -/
structure Grammar where
  program : String
  introduction : Option String := none
  positional : Option Positional := none
  switches : List Switch
  closing : Option String := none
  deriving DecidableEq, Repr

/-- The switch with a name. -/
def Grammar.find? (g : Grammar) (name : String) : Option Switch :=
  g.switches.find? (·.names.contains name)

/-- All names of switches, in order. -/
def Grammar.names (g : Grammar) : List (String × Switch) :=
  g.switches.flatMap fun s => s.names.map fun n => (n, s)

/-- The switch that shows the help. -/
def helpSwitch : Switch where
  names := ["-h", "--help"]
  effect := .help
  description := "show this help message and exit"

end DesignMarkup.CommandLine
