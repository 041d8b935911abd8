import DesignMarkup.Lookup
import DesignMarkup.Options

/-!
# `Config` — the configuration file

A configuration is a JSON object of three sections. What is unknown in it or of the wrong kind is
warned about and otherwise ignored.

## Contents

* `Config`, `section?`: the configuration and its sections;
* `Warning`, `warnings`: what is said about a configuration;
* `check`: what is said about a value of any shape;
* `token`: the access token;
* `options`: the settings of a conversion.
-/

namespace DesignMarkup

/-- The fields of a configuration. -/
abbrev Config := List (String × Json)

/-- Variables of the environment that are set. -/
abbrev Environment := List (String × String)

namespace Config

open Json (fieldOrNull)

/-- A value as a configuration: one that does not count as present is empty, and any other must have
fields. -/
def ofJson (v : Json) : Except LookupError Config :=
  Lookup.fieldsOrNone v

/-- The fields of a section; a section that is not an object has none. -/
def section? (c : Config) (name : String) : List (String × Json) :=
  match fieldOrNull c name with
  | .object fields => fields
  | _ => []

/-! ## Warnings -/

/-- The sections with their known fields, both in the order in which they are checked and named. -/
def knownFields : List (String × List String) :=
  [("figma", ["apiKey", "fileKey"]), ("output", ["bootstrapVersion", "dir", "title"]),
   ("conversion", ["instanceAsButton", "rootDepth"])]

/-- The names of the sections in alphabetical order. -/
def knownSections : List String :=
  ["conversion", "figma", "output"]

/-- What is said about a configuration. -/
inductive Warning where
  | unknownSection (name : String)
  | sectionNotObject (sectionName : String) (value : Json)
  | unknownField (sectionName : String) (known : List String) (name : String)
  | badRootDepth (value : Json)
  | badInstanceAsButton (value : Json)
  | badVersion (value : Json)

/-- The wording of a warning. -/
def Warning.message : Warning → String
  | .unknownSection name =>
    "未知頂層欄位 '" ++ name ++ "'（已知欄位：" ++ ", ".intercalate knownSections ++ "）"
  | .sectionNotObject sectionName v =>
    "'" ++ sectionName ++ "' 應為 JSON 物件，目前是 " ++ v.kindName
  | .unknownField sectionName known name =>
    "[" ++ sectionName ++ "] 未知欄位 '" ++ name ++ "'（已知欄位：" ++ ", ".intercalate known ++ "）"
  | .badRootDepth v => "conversion.rootDepth 應為非負整數，目前是 " ++ v.display
  | .badInstanceAsButton v => "conversion.instanceAsButton 應為 true/false，目前是 " ++ v.kindName
  | .badVersion v => "output.bootstrapVersion 應為字串，目前是 " ++ v.kindName

/-- The line that a warning is printed on. -/
def warningLine (message : String) : String :=
  "   ⚠️  [config] " ++ message ++ "\n"

/-- Sections that are not known. -/
def sectionWarnings (c : Config) : List Warning :=
  (Entries.keys c).filterMap fun name =>
    if knownSections.contains name then none else some (.unknownSection name)

/-- Fields of one section that are not known, or that the section is not an object. -/
def fieldWarnings (c : Config) (sectionName : String) (known : List String) : List Warning :=
  match Lookup.fieldOr c sectionName (.object []) with
  | .object fields =>
    (Entries.keys fields).filterMap fun name =>
      if known.contains name then none else some (.unknownField sectionName known name)
  | v => [.sectionNotObject sectionName v]

/-- The value is a whole number that is not negative. -/
def depth? : Json → Option Int
  | .number (.int n) => if 0 ≤ n then some n else none
  | _ => none

/-- The value is true or false. -/
def bool? : Json → Option Bool
  | .bool b => some b
  | _ => none

/-- The value is a text. -/
def string? : Json → Option String
  | .string s => some s
  | _ => none

/-- A warning about a value that is given but not accepted. -/
def refused {α : Type} (accept : Json → Option α) (warn : Json → Warning) (v : Json) :
    List Warning :=
  match v with
  | .null => []
  | v => if (accept v).isSome then [] else [warn v]

/-- **The warnings about a configuration**: unknown sections, then each section's fields, then values
of the wrong kind. -/
def warnings (c : Config) : List Warning :=
  let conversion := c.section? "conversion"
  sectionWarnings c ++ knownFields.flatMap (fun (name, known) => fieldWarnings c name known) ++
    refused depth? .badRootDepth (fieldOrNull conversion "rootDepth") ++
    refused bool? .badInstanceAsButton (fieldOrNull conversion "instanceAsButton") ++
    refused string? .badVersion (fieldOrNull (c.section? "output") "bootstrapVersion")

/-- Warnings as printed. -/
def printed (ws : List Warning) : String :=
  String.join (ws.map fun w => warningLine w.message)

/-- The warnings about a configuration as printed. -/
def warningText (c : Config) : String :=
  printed c.warnings

/-! ## Values of any shape -/

/-- The value can serve as a name. -/
def isName : Json → Bool
  | .array _ | .object _ => false
  | _ => true

/-- The warning about a name that is no known section; numbers and words serve as names as they are
shown. -/
def nameWarning (v : Json) : List Warning :=
  if knownSections.contains v.text then [] else [.unknownSection v.text]

/-- The warnings about values that are taken for names of sections, up to the first that can be none. -/
def nameWarnings : List Json → List Warning × Except LookupError Unit
  | [] => ([], .ok ())
  | v :: rest =>
    if isName v then
      let (ws, r) := nameWarnings rest
      (nameWarning v ++ ws, r)
    else ([], .error (.badName v))

/-- **What is printed about a value of any shape** that stands for a configuration, and why it is none.
The elements of a value without fields are taken for names of sections first. -/
def check (v : Json) : String × Except LookupError Unit :=
  match ofJson v with
  | .ok c => (c.warningText, .ok ())
  | .error e =>
    match Lookup.elementsOf v with
    | .ok items =>
      let (ws, r) := nameWarnings items
      (printed ws, r.bind fun _ => .error e)
    | .error e => ("", .error e)

/-! ## Settings -/

/-- A variable of the environment, null if it is not set. -/
def fromEnvironment (env : Environment) (name : String) : Json :=
  match Entries.get? name env with
  | some s => .string s
  | none => .null

/-- **The access token**: from the configuration, or else from the first of two variables of the
environment that is not empty. -/
def token (c : Config) (env : Environment) : Json :=
  ((fieldOrNull (c.section? "figma") "apiKey").orElse (fromEnvironment env "FIGMA_API_KEY")).orElse
    (fromEnvironment env "FIGMA_TOKEN")

/-- **The settings of a conversion**: those that the configuration gives in the right kind, replaced by
those given otherwise. -/
def options (c : Config) (given : Overrides) : Options :=
  let output := c.section? "output"
  let conversion := c.section? "conversion"
  let set : Overrides := {
    title := string? (fieldOrNull output "title")
    bootstrapVersion := string? (fieldOrNull output "bootstrapVersion")
    rootDepth := depth? (fieldOrNull conversion "rootDepth")
    instanceAsButton := bool? (fieldOrNull conversion "instanceAsButton") }
  (Options.override {} set).override given

/-- The folder for the output: as given, or else from the configuration, or else `output`. -/
def outputFolder (c : Config) (given : Option String) : Json :=
  (((given.map Json.string).getD .null).orElse (fieldOrNull (c.section? "output") "dir")).orElse
    (.string "output")

/-- The key of the file: as given, or else from the configuration. -/
def fileKey (c : Config) (given : Option String) : Json :=
  ((given.map Json.string).getD .null).orElse (fieldOrNull (c.section? "figma") "fileKey")

end Config

end DesignMarkup
