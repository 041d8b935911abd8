import DesignMarkup.Json

/-!
# `Json.Writer` — values as indented text

## Contents

* `quoteJson`: a string with its escapes;
* `indented`: a value over several lines, two blanks to a level.
-/

namespace DesignMarkup.Json

/-- A character within a string: quotes, backslashes and controls are escaped, all else stands for
itself. -/
def escapeInString (c : Char) : List Char :=
  match c with
  | '"' => ['\\', '"']
  | '\\' => ['\\', '\\']
  | '\n' => ['\\', 'n']
  | '\r' => ['\\', 'r']
  | '\t' => ['\\', 't']
  | '\x08' => ['\\', 'b']
  | '\x0C' => ['\\', 'f']
  | c => if c < ' ' then '\\' :: 'u' :: Text.hex 4 c.toNat else [c]

/-- A string in quotes. -/
def quoteJson (s : String) : String :=
  String.ofList ('"' :: s.toList.flatMap escapeInString ++ ['"'])

/-- A number; the special doubles are words. -/
def numberText : Number → String
  | .double .nan => "NaN"
  | .double (.infinity negative) => if negative then "-Infinity" else "Infinity"
  | n => n.text

/-- The start of a line at a level. -/
def newLine (level : Nat) : String :=
  "\n" ++ String.ofList (List.replicate (2 * level) ' ')

mutual

/-- A value whose nested lines stand at a level below `level`. -/
def indented (level : Nat) : Json → String
  | .null => "null"
  | .bool b => if b then "true" else "false"
  | .number n => numberText n
  | .string s => quoteJson s
  | .array [] => "[]"
  | .array (v :: rest) =>
    "[" ++ newLine (level + 1) ++
      ("," ++ newLine (level + 1)).intercalate (indentedItems (level + 1) (v :: rest)) ++
      newLine level ++ "]"
  | .object [] => "\x7b\x7d"
  | .object (f :: rest) =>
    "\x7b" ++ newLine (level + 1) ++
      ("," ++ newLine (level + 1)).intercalate (indentedFields (level + 1) (f :: rest)) ++
      newLine level ++ "\x7d"

/-- The elements of an array, each at a level. -/
def indentedItems (level : Nat) : List Json → List String
  | [] => []
  | v :: rest => indented level v :: indentedItems level rest

/-- The fields of an object, each at a level. -/
def indentedFields (level : Nat) : List (String × Json) → List String
  | [] => []
  | (name, v) :: rest =>
    (quoteJson name ++ ": " ++ indented level v) :: indentedFields level rest

end

end DesignMarkup.Json
