import DesignMarkup.Command
import DesignMarkup.Page.Output

/-!
# `Command.Convert` — a saved design as a page

## Contents

* `convertAlone`: a conversion in a context of its own;
* `convertFile`: reading, converting and writing;
* `ConvertArgs`, `convertCommand`: the command.
-/

namespace DesignMarkup

/-- A conversion in a context of its own, with the stylesheet it leaves. -/
def convertAlone (o : Options) (root : Node) : Except ConversionError (Result × StyleTable) :=
  let (r, c) := (convert o (some root)).run .fresh
  r.map fun result => (result, c.styles)

/-- A value that must be a text to serve as a path. -/
def pathText : Json → Except Failure String
  | .string s => .ok s
  | v => .error (.badPath v)

/-- The line about the components of a design, if it uses any. -/
def sayComponents (components : List Layer) : Talking Unit :=
  if components.isEmpty then return ()
  else say ("   🧩 Found " ++ toString components.length ++ " component(s)")

/-- **Converts a file**: reads it, converts it, tells of its components and writes the output. -/
def convertFile (input : String) (folder : Json) (o : Options) (fileName : String) :
    Command (List String) := do
  let root ← reading (loadNode · input)
  let (result, styles) ← reading fun _ => (convertAlone o root).mapError .conversion
  talking (sayComponents result.components)
  let folder ← reading fun _ => pathText folder
  filing (Page.writeConversion folder result styles o fileName)

/-- The arguments of the command. -/
structure ConvertArgs where
  input : String
  output : Option String
  title : Option String
  outputFile : String
  instanceAsButton : Bool
  deriving DecidableEq, Repr

/-- The name of the page file; an empty name is that of an index. -/
def ConvertArgs.fileName (a : ConvertArgs) : String :=
  textOr a.outputFile "index.html"

/-- The settings: a page that is not an index is a child. -/
def ConvertArgs.options (a : ConvertArgs) (c : Config) : Options :=
  let given : Overrides := {
    title := a.title
    instanceAsButton := if a.instanceAsButton then some true else none }
  let o := c.options given
  if a.fileName = "index.html" then o else { o with isChild := true }

/-- What remains to be done after a failed conversion: a missing file and faulty data are told of and
end the command with code 1. -/
def convertFailed (input : String) : Failure → Command Nat
  | .file (.fault .notFound _) => do
    talking (say ("❌ 找不到輸入檔：" ++ input))
    return 1
  | .data e => do
    talking (say ("❌ " ++ e.message))
    return 1
  | e => throw e

/-- **The command** that converts a saved design. -/
def convertCommand (a : ConvertArgs) (c : Config) : Command Nat := do
  talking (say ("🚀 Converting: " ++ a.input))
  tryCatch
    (do
      let written ← convertFile a.input (c.outputFolder a.output) (a.options c) a.fileName
      talking do
        reportPaths written
        say "   ✅ Done."
      return 0)
    (convertFailed a.input)

end DesignMarkup
