import DesignMarkup.Argument
import DesignMarkup.CommandLine.Help
import DesignMarkup.Text.Digit
import DesignMarkup.Text.Quoted

/-!
# `CommandLine.Parser` — the meaning of a command line

First every argument is told apart: it is a word, the double dash after which all are words, or a
switch. The long name of a switch may be cut short as long as only one name starts so; its value may
follow after an equals sign, that of a short switch directly. Then the arguments are taken from left to
right. What nothing can take is left over and is the caller's business.

## Contents

* `Exit`: the end of a program by its command line;
* `Mark`, `Token`, `classify`: arguments told apart;
* `bundle`: the switches in one argument;
* `Parsed`, `takePositional`, `takeSwitch`, `consume`: the taking;
* `parse`: a whole command line.
-/

namespace DesignMarkup.CommandLine

/-! ## Ends of the program -/

/-- The end of a program by its command line: its status and what it prints. -/
structure Exit where
  status : Nat
  output : String
  errors : String
  deriving DecidableEq, Repr

/-- The end after a text that was asked for. -/
def Exit.shows (text : String) : Exit :=
  ⟨0, text, ""⟩

/-- The end after an error: the usage and a message. -/
def Grammar.refuse (g : Grammar) (message : String) : Exit :=
  ⟨2, "", usage g ++ "\n" ++ g.program ++ ": error: " ++ message ++ "\n"⟩

/-- An error about one argument. -/
def Grammar.refuseArgument (g : Grammar) (label message : String) : Exit :=
  g.refuse ("argument " ++ label ++ ": " ++ message)

/-! ## Telling arguments apart -/

/-- A switch as an argument names it, with the characters that are written together with it. -/
structure SwitchUse where
  switch : Switch
  name : String
  attached : Option (List Char)
  deriving DecidableEq, Repr

/-- What an argument is. -/
inductive Mark where
  | word
  | dashes
  /-- A switch, or something that looks like one but is not known. -/
  | switch (use : Option SwitchUse)
  deriving DecidableEq, Repr

/-- An argument and what it is. -/
structure Token where
  text : String
  mark : Mark
  deriving DecidableEq, Repr

/-- The token is a switch, known or not. -/
def Token.isSwitch (t : Token) : Bool :=
  match t.mark with
  | .switch _ => true
  | _ => false

/-- The characters before the first equals sign, and those after it if there is one. -/
def splitEquals (cs : List Char) : List Char × Option (List Char) :=
  match cs.span (· != '=') with
  | (before, []) => (before, none)
  | (before, _ :: after) => (before, some after)

/-- A negative number: a dash and digits, perhaps with a point before or among them; a line feed may
follow. -/
def isNegativeNumber (cs : List Char) : Bool :=
  match cs with
  | '-' :: rest =>
    let rest := if rest.getLast? = some '\n' then rest.dropLast else rest
    match rest.span Text.isDecimalDigit with
    | (digits, []) => !digits.isEmpty
    | (_, '.' :: fraction) => !fraction.isEmpty && fraction.all Text.isDecimalDigit
    | _ => false
  | _ => false

/-- The uses of switches that an argument may stand for, if its name is cut short or followed by its
value. -/
def readings (g : Grammar) (cs : List Char) : List SwitchUse :=
  match cs with
  | '-' :: '-' :: _ =>
    let (start, value) := splitEquals cs
    (g.names.filter fun (n, _) => start.isPrefixOf n.toList).map fun (n, s) =>
      ⟨s, n, value⟩
  | '-' :: letter :: value =>
    (g.names.filter fun (n, _) => n.toList == ['-', letter]).map fun (n, s) =>
      ⟨s, n, some value⟩
  | _ => []

/-- A switch that is named in full, alone or before an equals sign. -/
def fullName? (g : Grammar) (arg : String) : Option SwitchUse :=
  match g.find? arg with
  | some s => some ⟨s, arg, none⟩
  | none =>
    match splitEquals arg.toList with
    | (name, some value) =>
      (g.find? (String.ofList name)).map fun s => ⟨s, String.ofList name, some value⟩
    | (_, none) => none

/-- **What an argument is**, before any double dash. -/
def mark (g : Grammar) (arg : String) : Except Exit Mark :=
  let cs := arg.toList
  if cs.head? ≠ some '-' ∨ cs = ['-'] then .ok .word
  else
    match fullName? g arg with
    | some use => .ok (.switch (some use))
    | none =>
      match readings g cs with
      | [use] => .ok (.switch (some use))
      | [] =>
        if isNegativeNumber cs || cs.contains ' ' then .ok .word else .ok (.switch none)
      | uses => .error (g.refuse ("ambiguous option: " ++ arg ++ " could match " ++
          ", ".intercalate (uses.map (·.name))))

/-- All arguments told apart. -/
def classify (g : Grammar) : List String → Except Exit (List Token)
  | [] => .ok []
  | arg :: rest =>
    if arg = "--" then .ok (⟨arg, .dashes⟩ :: rest.map (⟨·, .word⟩))
    else do
      let m ← mark g arg
      let tokens ← classify g rest
      return ⟨arg, m⟩ :: tokens

/-! ## Switches in one argument -/

/-- What the switches of one argument come to: those that take no value, then one that takes the value
written with it or the next word, if any. -/
structure Bundle where
  plain : List Switch
  valued : Option (Switch × Option Argument)
  deriving DecidableEq, Repr

/-- The message about a value that a switch does not take. -/
def ignoredValue (value : List Char) : String :=
  "ignored explicit argument " ++ Text.quoted (String.ofList value)

/-- Puts a switch before the others of an argument. -/
def Bundle.cons (s : Switch) (b : Bundle) : Bundle :=
  { b with plain := s :: b.plain }

/-- A switch alone, whose value is the next word if it takes one. -/
def Bundle.single (s : Switch) : Bundle :=
  if s.takesValue then ⟨[], some (s, none)⟩ else ⟨[s], none⟩

/-- **The switches in one argument**, from a switch and the characters written together with it: its
value, or, after a short switch that takes none, the letters of further short switches, of which the
last may be followed by its value. -/
def bundle (g : Grammar) (s : Switch) (isLong : Bool) (attached : List Char) : Except Exit Bundle :=
  if s.takesValue then .ok ⟨[], some (s, some (.ofWritten (String.ofList attached)))⟩
  else
    match attached with
    | [] => .error (g.refuseArgument s.label (ignoredValue []))
    | letter :: rest =>
      if isLong then .error (g.refuseArgument s.label (ignoredValue (letter :: rest)))
      else
        match g.find? (String.ofList ['-', letter]) with
        | none => .error (g.refuseArgument s.label (ignoredValue (letter :: rest)))
        | some next =>
          if rest.isEmpty then .ok ((Bundle.single next).cons s)
          else (bundle g next false rest).map (Bundle.cons s)

/-- The switch is named by its long name. -/
def SwitchUse.isLong (u : SwitchUse) : Bool :=
  ['-', '-'].isPrefixOf u.name.toList

/-- The switches that a use of a switch comes to. -/
def SwitchUse.bundle (g : Grammar) (u : SwitchUse) : Except Exit Bundle :=
  match u.attached with
  | some attached => CommandLine.bundle g u.switch u.isLong attached
  | none => .ok (.single u.switch)

/-! ## Taking arguments -/

/-- What has been taken: the values of switches by their keys, the word or the command, and what is left
over. -/
structure Parsed where
  given : List (String × Argument)
  word : Option String
  command : Option (String × List String)
  extras : List String
  deriving DecidableEq, Repr

/-- Nothing taken yet. -/
def Parsed.nothing : Parsed :=
  ⟨[], none, none, []⟩

/-- A switch that takes no value takes effect. -/
def applyPlain (g : Grammar) (version : String) (p : Parsed) (s : Switch) : Except Exit Parsed :=
  match s.effect with
  | .help => .error (.shows (help g))
  | .version => .error (.shows (version ++ "\n"))
  | _ => .ok { p with given := (s.key, .text "") :: p.given }

/-- The argument for a value: what is written with the switch, or the next word. -/
def nextValue (g : Grammar) (s : Switch) (written : Option Argument) (rest : List Token) :
    Except Exit (Argument × List Token) :=
  match written, rest with
  | some value, rest => .ok (value, rest)
  | none, ⟨value, .word⟩ :: rest => .ok (.text value, rest)
  | none, _ => .error (g.refuseArgument s.label "expected one argument")

/-- Takes a switch, before the tokens `rest`. -/
def takeSwitch (g : Grammar) (version : String) (p : Parsed) (text : String)
    (use : Option SwitchUse) (rest : List Token) : Except Exit (Parsed × List Token) :=
  match use with
  | none => .ok ({ p with extras := p.extras ++ [text] }, rest)
  | some u => do
    let b ← u.bundle g
    match b.valued with
    | none => do
      let p ← b.plain.foldlM (applyPlain g version) p
      return (p, rest)
    | some (s, written) => do
      let (value, rest) ← nextValue g s written rest
      let p ← b.plain.foldlM (applyPlain g version) p
      return ({ p with given := (s.key, value) :: p.given }, rest)

/-- The token is a double dash. -/
def Token.isDashes (t : Token) : Bool :=
  t.mark == .dashes

/-- Takes the word or the command from the start of the tokens, if one is still wanted and stands there,
perhaps after a double dash. A command takes all that follows. -/
def takePositional (g : Grammar) (p : Parsed) (tokens : List Token) :
    Except Exit (Option (Parsed × List Token)) :=
  match tokens.dropWhile Token.isDashes with
  | ⟨text, .word⟩ :: rest =>
    match g.positional with
    | some (.value _ _) =>
      if p.word.isSome then .ok none
      else .ok (some ({ p with word := some text }, rest.dropWhile Token.isDashes))
    | some (.command choices) =>
      if p.command.isSome then .ok none
      else
        match tokens.map Token.text with
        | [] => .ok none
        | name :: args =>
          if choices.any (·.1 == name) then .ok (some ({ p with command := some (name, args) }, []))
          else .error (g.refuseArgument "command" ("invalid choice: " ++ Text.quoted name ++
              " (choose from " ++ ", ".intercalate (choices.map fun c => Text.quoted c.1) ++ ")"))
    | none => .ok none
  | _ => .ok none

/-- **Takes all tokens** from left to right; each round uses up one unit of `fuel` and at least one
token. After the last switch a word or a command is taken once more. -/
def consume (g : Grammar) (version : String) (fuel : Nat) (p : Parsed) (tokens : List Token) :
    Except Exit Parsed :=
  match fuel with
  | 0 => .ok p
  | fuel + 1 =>
    if tokens.any Token.isSwitch then
      match tokens with
      | ⟨text, .switch use⟩ :: rest => do
        let (p, rest) ← takeSwitch g version p text use rest
        consume g version fuel p rest
      | tokens => do
        match ← takePositional g p tokens with
        | some (p, rest) => consume g version fuel p rest
        | none =>
          let (before, rest) := tokens.span fun t => !t.isSwitch
          consume g version fuel { p with extras := p.extras ++ before.map Token.text } rest
    else do
      match ← takePositional g p tokens with
      | some (p, rest) => return { p with extras := p.extras ++ rest.map Token.text }
      | none => return { p with extras := p.extras ++ tokens.map Token.text }

/-- What must be given and was not. -/
def missing (g : Grammar) (p : Parsed) : List String :=
  let switches := (g.switches.filter fun s => s.required && !p.given.any (·.1 == s.key)).map Switch.label
  match g.positional with
  | some (.value name _) => switches ++ if p.word.isSome then [] else [name]
  | _ => switches

/-- **What a command line means**, with what is left over of it. -/
def parse (g : Grammar) (version : String) (args : List String) : Except Exit Parsed := do
  let tokens ← classify g args
  let p ← consume g version (tokens.length + 1) .nothing tokens
  match missing g p with
  | [] => return p
  | names => throw (g.refuse ("the following arguments are required: " ++ ", ".intercalate names))

end DesignMarkup.CommandLine
