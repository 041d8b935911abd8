import DesignMarkup.Command.Pages
import DesignMarkup.Command.Watch
import DesignMarkup.CommandLine.Parser

/-!
# `Program` — the program as a whole

## Contents

* `mainGrammar`, `convertGrammar`, `fetchGrammar`, `pagesGrammar`, `watchGrammar`: what a command line
  may hold;
* `Invocation`, `Invocation.parse`: what it asks for;
* `Surroundings`, `Ending`, `Outcome`: what a run depends on and comes to;
* `run`: the run of the program.
-/

namespace DesignMarkup

open CommandLine

/-! ## Command lines -/

/-- The name of the program. -/
def programName : String :=
  "figma-bootstrap"

/-- The version line. -/
def versionText : String :=
  programName ++ " 0.1.0"

/-- The commands with their descriptions. -/
def commandChoices : List (String × String) :=
  [("convert", "Saved Figma JSON → HTML/CSS"), ("fetch", "Figma API → HTML/CSS"),
   ("pages", "List pages (checks API access)"),
   ("watch", "Re-convert when the input JSON changes")]

/-- A switch that takes a value. -/
def valueSwitch (names : List String) (metavariable description : String) : Switch where
  names := names
  effect := .value metavariable
  description := description

/-- A switch that must be given with a value. -/
def requiredSwitch (names : List String) (metavariable description : String) : Switch :=
  { valueSwitch names metavariable description with required := true }

/-- A switch that is set by its presence. -/
def flagSwitch (names : List String) (description : String) : Switch where
  names := names
  effect := .flag
  description := description

/-- The folder for the output. -/
def outputSwitch : Switch :=
  valueSwitch ["--output", "-o"] "OUTPUT" "Output directory (default: output)"

/-- The title of the page. -/
def titleSwitch : Switch :=
  valueSwitch ["--title"] "TITLE" "Document title"

/-- The key of the file. -/
def fileKeySwitch : Switch :=
  valueSwitch ["--file-key"] "FILE_KEY" "Figma file key"

/-- The design to convert. -/
def inputWord : Positional :=
  .value "input" "Figma /nodes response or single node JSON"

/-- The command line before the command. -/
def mainGrammar : Grammar where
  program := programName
  introduction := some "figma-bootstrap: Figma → Bootstrap HTML/CSS"
  positional := some (.command commandChoices)
  switches := [
    helpSwitch,
    valueSwitch ["--config", "-c"] "CONFIG" "Config path",
    { names := ["--version", "-v"]
      effect := .version
      description := "show program's version number and exit" }]
  closing := some ("figma-bootstrap CLI — Figma → Bootstrap HTML/CSS\n\n" ++
    "  python -m figma_bootstrap.cli convert frame.json -o output     # 離線轉換存檔 JSON\n" ++
    "  python -m figma_bootstrap.cli fetch --file-key KEY --page P --frame F\n" ++
    "  python -m figma_bootstrap.cli pages --file-key KEY              # 列出頁面（檢查 API 存取）\n" ++
    "  python -m figma_bootstrap.cli watch frame.json -o output        # 存檔 JSON 變更時自動轉換")

/-- The command line of `convert`. -/
def convertGrammar : Grammar where
  program := programName ++ " convert"
  positional := some inputWord
  switches := [
    helpSwitch, outputSwitch, titleSwitch,
    valueSwitch ["--output-file"] "OUTPUT_FILE"
      "HTML file name (non-index files link ../styles.css)",
    flagSwitch ["--instance-as-button"] "Render INSTANCE nodes as buttons"]
  closing := some ("Examples:\n" ++
    "  figma-bootstrap convert frame.json -o ./output\n" ++
    "  figma-bootstrap convert card.json -o ./output --output-file card.html")

/-- The command line of `fetch`. -/
def fetchGrammar : Grammar where
  program := programName ++ " fetch"
  switches := [
    helpSwitch, fileKeySwitch,
    requiredSwitch ["--page"] "PAGE" "Page name in the Figma file",
    requiredSwitch ["--frame"] "FRAME" "Frame or component name",
    outputSwitch,
    flagSwitch ["--no-children"] "Skip per-child pages"]
  closing := some ("Examples:\n" ++
    "  figma-bootstrap fetch --file-key ABC123 --page Design --frame Button\n" ++
    "  figma-bootstrap fetch --file-key ABC123 --page Design --frame Card -o ./dist")

/-- The command line of `pages`. -/
def pagesGrammar : Grammar where
  program := programName ++ " pages"
  switches := [helpSwitch, fileKeySwitch]

/-- The command line of `watch`. -/
def watchGrammar : Grammar where
  program := programName ++ " watch"
  positional := some inputWord
  switches := [helpSwitch, outputSwitch, titleSwitch]
  closing := some ("Examples:\n" ++ "  figma-bootstrap watch frame.json -o ./output")

/-! ## Invocations -/

/-- A command with its arguments. -/
inductive Action where
  | convert (a : ConvertArgs)
  | fetch (a : FetchArgs)
  | pages (a : PagesArgs)
  | watch (a : WatchArgs)
  deriving DecidableEq, Repr

/-- What a command line asks for. -/
structure Invocation where
  config : Argument
  action : Option Action
  deriving DecidableEq, Repr

/-- What a switch is given. -/
def given? (p : Parsed) (key : String) : Option Argument :=
  Entries.get? key p.given

/-- What a switch is given where nothing and an empty text come to the same. -/
def givenText? (p : Parsed) (key : String) : Option String :=
  (given? p key).map Argument.characters

/-- The arguments of `convert`. -/
def convertArgs (p : Parsed) : ConvertArgs where
  input := p.word.getD ""
  output := givenText? p "--output"
  title := givenText? p "--title"
  outputFile := (givenText? p "--output-file").getD "index.html"
  instanceAsButton := (given? p "--instance-as-button").isSome

/-- The arguments of `fetch`. -/
def fetchArgs (p : Parsed) : FetchArgs where
  fileKey := givenText? p "--file-key"
  page := (given? p "--page").getD .empty
  frame := (given? p "--frame").getD .empty
  output := givenText? p "--output"
  noChildren := (given? p "--no-children").isSome

/-- The arguments of `pages`. -/
def pagesArgs (p : Parsed) : PagesArgs where
  fileKey := givenText? p "--file-key"

/-- The arguments of `watch`. -/
def watchArgs (p : Parsed) : WatchArgs where
  input := p.word.getD ""
  output := givenText? p "--output"
  title := givenText? p "--title"

/-- The grammar of a command and what its arguments ask for. -/
def commandOf (name : String) : Grammar × (Parsed → Action) :=
  match name with
  | "convert" => (convertGrammar, fun p => .convert (convertArgs p))
  | "fetch" => (fetchGrammar, fun p => .fetch (fetchArgs p))
  | "pages" => (pagesGrammar, fun p => .pages (pagesArgs p))
  | _ => (watchGrammar, fun p => .watch (watchArgs p))

/-- A command from its name and its arguments, with what is left over of them. -/
def parseCommand : Option (String × List String) → Except Exit (Option Action × List String)
  | none => .ok (none, [])
  | some (name, args) => do
    let (grammar, action) := commandOf name
    let p ← parse grammar versionText args
    return (some (action p), p.extras)

/-- **What a command line asks for.** Nothing of it may be left over. -/
def Invocation.parse (args : List String) : Except Exit Invocation := do
  let p ← CommandLine.parse mainGrammar versionText args
  let (action, extras) ← parseCommand p.command
  match p.extras ++ extras with
  | [] => return ⟨(given? p "--config").getD (.text defaultConfigPath), action⟩
  | left => throw (mainGrammar.refuse ("unrecognized arguments: " ++ " ".intercalate left))

/-! ## Runs -/

/-- What a run depends on: the environment, the files, the responses to come, what happens while the program
watches, and where its events are handled. Moments that are given are told by a stand-in, unless it is said
otherwise. -/
structure Surroundings where
  environment : Environment
  files : Store
  responses : List Response
  moments : List Moment
  observer : Observer := .within

/-- How a run ends. -/
inductive Ending where
  /-- A command ends with a code. -/
  | code (n : Nat)
  /-- The command line ends the program. -/
  | exit (status : Nat)
  /-- The run fails. -/
  | failed (e : Failure)

/-- What a run comes to. -/
structure Outcome where
  ending : Ending
  output : String
  errors : String
  files : Store
  sent : List Request
  signals : List Signal

/-- The outcome of a command that ends in a world. -/
def Outcome.of (r : Except Failure Nat) (w : World) (signals : List Signal) : Outcome where
  ending := match r with
    | .ok n => .code n
    | .error e => .failed e
  output := w.talk.printed
  errors := ""
  files := w.files
  sent := w.talk.exchange.sent
  signals := signals

/-- A command in a world; without one the help is shown. -/
def runAction (action : Option Action) (c : Config) (s : Surroundings) (w : World) : Outcome :=
  let simple (m : Command Nat) : Outcome :=
    let (r, w) := m.run w
    .of r w []
  match action with
  | some (.convert a) => simple (convertCommand a c)
  | some (.fetch a) => simple (fetchCommand a c s.environment)
  | some (.pages a) => simple (pagesCommand a c s.environment)
  | some (.watch a) =>
    let o := watchCommand s.observer a c s.moments w
    .of o.result o.world o.signals
  | none => simple (talking (do print (help mainGrammar); return 0))

/-- The world before a command. -/
def Surroundings.world (s : Surroundings) (printed : String) : World :=
  ⟨s.files, ⟨printed, ⟨[], s.responses⟩⟩⟩

/-- An invocation: the configuration is read first, then the command is run. -/
def runInvocation (i : Invocation) (s : Surroundings) : Outcome :=
  match configFor s.files i.config with
  | .error e => .of (.error e) (s.world "") []
  | .ok (c, printed) => runAction i.action c s (s.world printed)

/-- **A run of the program** with its arguments. -/
def run (args : List String) (s : Surroundings) : Outcome :=
  match Invocation.parse args with
  | .ok i => runInvocation i s
  | .error e => ⟨.exit e.status, e.output, e.errors, s.files, [], []⟩

end DesignMarkup
