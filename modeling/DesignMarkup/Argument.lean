/-!
# `Argument` — what a switch of the command line is given

A switch that takes a value is given a text. Only a double dash is no text: written together with the
switch, it ends the values of the switch before the first one, so that the switch is given, and given
nothing.

## Contents

* `Argument`, `Argument.ofWritten`: what is given;
* `Argument.characters`, `Argument.shown`: its text, within a page and within a line about it.
-/

namespace DesignMarkup

/-- What a switch is given. -/
inductive Argument where
  | text (s : String)
  /-- The empty list of values. -/
  | empty
  deriving DecidableEq, Repr

namespace Argument

/-- What is written together with a switch. -/
def ofWritten (s : String) : Argument :=
  if s = "--" then .empty else .text s

/-- The characters of an argument; nothing has none. -/
def characters : Argument → String
  | .text s => s
  | .empty => ""

/-- An argument as a line about it shows it: nothing is shown as an empty list. -/
def shown : Argument → String
  | .text s => s
  | .empty => "[]"

end Argument

end DesignMarkup
