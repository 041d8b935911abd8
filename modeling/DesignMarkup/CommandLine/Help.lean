import DesignMarkup.CommandLine.Grammar

/-!
# `CommandLine.Help` — usage and help

Both are laid out for lines of 78 characters. The usage is wrapped between its pieces and goes on below
the first piece after the name of the program. In the help, descriptions start at one column, which is
at most the 24th; behind a longer entry the description starts on a line of its own.

## Contents

* `usage`: how a command line may look;
* `help`: usage, introduction, entries and closing words.
-/

namespace DesignMarkup.CommandLine

/-- The width of the lines. -/
def lineWidth : Nat :=
  78

/-- Blanks. -/
def blanks (n : Nat) : String :=
  String.ofList (List.replicate n ' ')

/-! ## Usage -/

/-- A switch in the usage, cut into the pieces between which a line may end: in brackets unless it is
required. -/
def Switch.usagePieces (s : Switch) : List String :=
  let name := s.key
  match s.effect with
  | .value metavariable =>
    if s.required then [name, metavariable] else ["[" ++ name ++ " " ++ metavariable ++ "]"]
  | _ => ["[" ++ name ++ "]"]

/-- The choices of a command. -/
def choicesText (choices : List (String × String)) : String :=
  "\x7b" ++ ",".intercalate (choices.map (·.1)) ++ "\x7d"

/-- What stands besides switches, in pieces. -/
def Positional.usagePieces : Positional → List String
  | .value name _ => [name]
  | .command choices => [choicesText choices, "..."]

/-- One more piece after the lines `done`, of which the last is `line`; `margin` is the column at which
lines start. -/
def addPiece (margin : Nat) : List String × String → String → List String × String
  | (done, line), piece =>
    if line = "" then (done, piece)
    else if lineWidth < margin + line.length + 1 + piece.length then (done ++ [line], piece)
    else (done, line ++ " " ++ piece)

/-- Pieces as lines that start at a margin. -/
def fillLines (margin : Nat) (pieces : List String) : List String :=
  let (done, line) := pieces.foldl (addPiece margin) ([], "")
  if line = "" then done else done ++ [line]

/-- **The usage.** On one line if it fits, else with the switches and the rest on lines of their own. -/
def usage (g : Grammar) : String :=
  let switches := g.switches.flatMap Switch.usagePieces
  let others := (g.positional.map Positional.usagePieces).getD []
  let start := "usage: " ++ g.program
  let whole := " ".intercalate (start :: switches ++ others)
  if whole.length ≤ lineWidth then whole
  else
    let margin := start.length + 1
    let lines := fillLines margin switches ++ fillLines margin others
    start ++ " " ++ ("\n" ++ blanks margin).intercalate lines

/-! ## Help -/

/-- An entry of the help: its indentation, its name and its description, which may be empty. -/
structure HelpEntry where
  margin : Nat
  name : String
  description : String
  deriving DecidableEq, Repr

/-- A switch with all its names. -/
def Switch.entry (s : Switch) : HelpEntry where
  margin := 2
  name :=
    match s.effect with
    | .value metavariable => ", ".intercalate (s.names.map fun n => n ++ " " ++ metavariable)
    | _ => ", ".intercalate s.names
  description := s.description

/-- The entries of what stands besides switches. -/
def Positional.entries : Positional → List HelpEntry
  | .value name description => [⟨2, name, description⟩]
  | .command choices => ⟨2, choicesText choices, ""⟩ :: choices.map fun (n, d) => ⟨4, n, d⟩

/-- The column of the descriptions: two blanks behind the longest entry, and at most 24. -/
def helpColumn (entries : List HelpEntry) : Nat :=
  min 24 (entries.foldl (fun m e => max m e.name.length) 0 + 4)

/-- An entry on its line or lines. -/
def HelpEntry.render (column : Nat) (e : HelpEntry) : String :=
  let start := blanks e.margin ++ e.name
  if e.description = "" then start ++ "\n"
  else if start.length + 2 ≤ column then
    start ++ blanks (column - start.length) ++ e.description ++ "\n"
  else start ++ "\n" ++ blanks column ++ e.description ++ "\n"

/-- A headed block of entries; no entries make no block. -/
def helpBlock (column : Nat) (heading : String) (entries : List HelpEntry) : List String :=
  if entries.isEmpty then []
  else [heading ++ ":\n" ++ String.join (entries.map (HelpEntry.render column))]

/-- **The help**, in blocks with blank lines between them. -/
def help (g : Grammar) : String :=
  let positional := (g.positional.map Positional.entries).getD []
  let switches := g.switches.map Switch.entry
  let column := helpColumn (positional ++ switches)
  "\n".intercalate <|
    [usage g ++ "\n"] ++ (g.introduction.map (· ++ "\n")).toList ++
      helpBlock column "positional arguments" positional ++
      helpBlock column "options" switches ++ (g.closing.map (· ++ "\n")).toList

end DesignMarkup.CommandLine
