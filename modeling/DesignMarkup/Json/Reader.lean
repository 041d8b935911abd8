import DesignMarkup.Json

/-!
# `Json.Reader` — values from text

The reader accepts JSON and, as numbers, the three words `NaN`, `Infinity` and `-Infinity`. A field
that occurs again replaces the earlier value in its place. A number without fraction and exponent is a
whole number of any size, any other is the nearest double.

Every function works on the characters that are left, and an error says how many were left where it
was noticed; only the public reader turns that into a line and a column.

## Contents

* `Fault`, `ReadError`: what is wrong, and where;
* `stringBody`, `numeral`, `literal?`: the leaves;
* `value`, `elements`, `members`: nested values;
* `read`: a whole text.
-/

namespace DesignMarkup.Json

/-! ## Errors -/

/-- What is wrong with a text. -/
inductive Fault where
  | byteOrderMark
  | expectingValue
  | expectingName
  | expectingColon
  | expectingComma
  | extraData
  | unterminatedString
  | invalidControl
  | invalidEscape
  | invalidUnicodeEscape
  deriving DecidableEq, Repr

/-- The wording of a fault. -/
def Fault.message : Fault → String
  | .byteOrderMark => "Unexpected UTF-8 BOM (decode using utf-8-sig)"
  | .expectingValue => "Expecting value"
  | .expectingName => "Expecting property name enclosed in double quotes"
  | .expectingColon => "Expecting ':' delimiter"
  | .expectingComma => "Expecting ',' delimiter"
  | .extraData => "Extra data"
  | .unterminatedString => "Unterminated string starting at"
  | .invalidControl => "Invalid control character at"
  | .invalidEscape => "Invalid \\escape"
  | .invalidUnicodeEscape => "Invalid \\uXXXX escape"

/-- A fault and its place: line and column count from one, the position from zero. -/
structure ReadError where
  fault : Fault
  line : Nat
  column : Nat
  position : Nat
  deriving DecidableEq, Repr

/-- The wording of an error. -/
def ReadError.message (e : ReadError) : String :=
  e.fault.message ++ ": line " ++ toString e.line ++ " column " ++ toString e.column ++
    " (char " ++ toString e.position ++ ")"

/-- The error that is noticed after the characters `before`. -/
def ReadError.after (fault : Fault) (before : List Char) : ReadError where
  fault := fault
  line := before.count '\n' + 1
  column := (before.reverse.takeWhile (· != '\n')).length + 1
  position := before.length

/-- A result, or a fault with the number of characters that were left. -/
abbrev Attempt := Except (Fault × Nat)

/-! ## Leaves -/

/-- The blanks that may stand between tokens. -/
def isSeparator (c : Char) : Bool :=
  c == ' ' || c == '\t' || c == '\n' || c == '\r'

/-- The characters after leading blanks. -/
def skipBlanks (cs : List Char) : List Char :=
  cs.dropWhile isSeparator

/-- The value of a hexadecimal digit. -/
def hexDigit? (c : Char) : Option Nat :=
  if '0' ≤ c ∧ c ≤ '9' then some (c.toNat - '0'.toNat)
  else if 'a' ≤ c ∧ c ≤ 'f' then some (c.toNat - 'a'.toNat + 10)
  else if 'A' ≤ c ∧ c ≤ 'F' then some (c.toNat - 'A'.toNat + 10)
  else none

/-- The number with four hexadecimal digits. -/
def hexUnit? (a b c d : Char) : Option Nat := do
  return (((← hexDigit? a) * 16 + (← hexDigit? b)) * 16 + (← hexDigit? c)) * 16 + (← hexDigit? d)

/-- The unit is the first half of a pair. -/
def isHighUnit (n : Nat) : Bool :=
  0xD800 ≤ n && n < 0xDC00

/-- The unit is the second half of a pair. -/
def isLowUnit (n : Nat) : Bool :=
  0xDC00 ≤ n && n < 0xE000

/-- The character of a single code. Half of a pair alone is no character here and becomes the replacement
character, which departs from the program: there it stays in the text as it is. -/
def unitChar (n : Nat) : Char :=
  if isHighUnit n || isLowUnit n then '\uFFFD' else Char.ofNat n

/-- The characters of a text given by codes that run backwards, put before the characters `after`. Two
halves of a pair that stand side by side are one character. -/
def joinUnits (after : List Char) : List Nat → List Char
  | low :: high :: rest =>
    if isHighUnit high && isLowUnit low then
      joinUnits (Char.ofNat (0x10000 + (high - 0xD800) * 0x400 + (low - 0xDC00)) :: after) rest
    else joinUnits (unitChar low :: after) (high :: rest)
  | [n] => unitChar n :: after
  | [] => after

/-- The character that a one-letter escape stands for. -/
def escapeChar? (c : Char) : Option Char :=
  match c with
  | '"' => some '"'
  | '\\' => some '\\'
  | '/' => some '/'
  | 'b' => some '\x08'
  | 'f' => some '\x0C'
  | 'n' => some '\n'
  | 'r' => some '\r'
  | 't' => some '\t'
  | _ => none

/-- The rest of a string after its opening quote and the codes `done`, which run backwards. An escape
by code needs a character after its four digits. -/
def stringBody (done : List Nat) : List Char → Attempt (String × List Char)
  | [] => .error (.unterminatedString, 0)
  | '"' :: rest => .ok (String.ofList (joinUnits [] done), rest)
  | '\\' :: 'u' :: a :: b :: c :: d :: rest =>
    match hexUnit? a b c d with
    | some n =>
      if rest.isEmpty then .error (.invalidUnicodeEscape, 5) else stringBody (n :: done) rest
    | none => .error (.invalidUnicodeEscape, rest.length + 5)
  | '\\' :: 'u' :: rest => .error (.invalidUnicodeEscape, rest.length + 1)
  | '\\' :: c :: rest =>
    match escapeChar? c with
    | some c => stringBody (c.toNat :: done) rest
    | none => .error (.invalidEscape, rest.length + 2)
  | ['\\'] => .error (.unterminatedString, 0)
  | c :: rest =>
    if c < ' ' then .error (.invalidControl, rest.length + 1)
    else stringBody (c.toNat :: done) rest

/-- The string whose opening quote stands before `cs`. -/
def stringAfterQuote (cs : List Char) : Attempt (String × List Char) :=
  match stringBody [] cs with
  | .error (.unterminatedString, _) => .error (.unterminatedString, cs.length + 1)
  | r => r

/-- The number with the given decimal digits. -/
def digitsValue (ds : List Char) : Nat :=
  ds.foldl (fun n c => n * 10 + (c.toNat - '0'.toNat)) 0

/-- The whole part of a number: a zero alone, or digits that do not start with one. -/
def wholeDigits? (cs : List Char) : Option (List Char × List Char) :=
  match cs with
  | '0' :: rest => some (['0'], rest)
  | c :: _ => if c.isDigit then some (cs.span Char.isDigit) else none
  | [] => none

/-- The digits of a fraction, if a point and a digit follow. -/
def fractionDigits? (cs : List Char) : Option (List Char × List Char) :=
  match cs with
  | '.' :: rest =>
    let (ds, rest) := rest.span Char.isDigit
    if ds.isEmpty then none else some (ds, rest)
  | _ => none

/-- The exponent, if its mark, a sign or none, and a digit follow. -/
def exponent? (cs : List Char) : Option (Int × List Char) :=
  match cs with
  | mark :: rest =>
    if mark == 'e' || mark == 'E' then
      let (negative, rest) : Bool × List Char := match rest with
        | '-' :: rest => (true, rest)
        | '+' :: rest => (false, rest)
        | rest => (false, rest)
      let (ds, rest) := rest.span Char.isDigit
      if ds.isEmpty then none else some (Binary64.signed negative (digitsValue ds), rest)
    else none
  | [] => none

/-- A number; where none begins, a value is missing. -/
def numeral (cs : List Char) : Attempt (Number × List Char) :=
  let (negative, start) : Bool × List Char := match cs with
    | '-' :: rest => (true, rest)
    | cs => (false, cs)
  match wholeDigits? start with
  | none => .error (.expectingValue, cs.length)
  | some (whole, rest) =>
    match fractionDigits? rest with
    | some (fraction, rest) =>
      let (exponent, rest) := (exponent? rest).getD (0, rest)
      .ok (.double (Binary64.ofDecimal negative (digitsValue (whole ++ fraction))
        (exponent - fraction.length)), rest)
    | none =>
      match exponent? rest with
      | some (exponent, rest) =>
        .ok (.double (Binary64.ofDecimal negative (digitsValue whole) exponent), rest)
      | none => .ok (.int (Binary64.signed negative (digitsValue whole)), rest)

/-- The words that are values. -/
def literals : List (String × Json) :=
  [("null", .null), ("true", .bool true), ("false", .bool false),
   ("NaN", .number (.double .nan)), ("Infinity", .number (.double (.infinity false))),
   ("-Infinity", .number (.double (.infinity true)))]

/-- The word at the start of the text, if it is one of the words that are values. -/
def literal? (cs : List Char) : Option (Json × List Char) :=
  literals.findSome? fun (word, v) =>
    if word.toList.isPrefixOf cs then some (v, cs.drop word.length) else none

/-! ## Nested values -/

mutual

/-- A value that starts with the first character. Going into an array or an object and on to a value in
it uses up two units of `fuel` and at least one character, so twice as many units as characters, and
two more, are enough. -/
def value (fuel : Nat) (cs : List Char) : Attempt (Json × List Char) :=
  match fuel with
  | 0 => .error (.expectingValue, cs.length)
  | fuel + 1 =>
    match cs with
    | '"' :: rest => do
      let (s, rest) ← stringAfterQuote rest
      return (.string s, rest)
    | '\x7b' :: rest =>
      match skipBlanks rest with
      | '\x7d' :: rest => .ok (.object [], rest)
      | rest => members fuel [] rest
    | '[' :: rest =>
      match skipBlanks rest with
      | ']' :: rest => .ok (.array [], rest)
      | rest => elements fuel [] rest
    | cs =>
      match literal? cs with
      | some r => .ok r
      | none => do
        let (n, rest) ← numeral cs
        return (.number n, rest)

/-- The elements of an array after those in `done`, which run backwards. -/
def elements (fuel : Nat) (done : List Json) (cs : List Char) : Attempt (Json × List Char) :=
  match fuel with
  | 0 => .error (.expectingValue, cs.length)
  | fuel + 1 => do
    let (v, rest) ← value fuel cs
    match skipBlanks rest with
    | ']' :: rest => return (.array (v :: done).reverse, rest)
    | ',' :: rest => elements fuel (v :: done) (skipBlanks rest)
    | rest => throw (.expectingComma, rest.length)

/-- The fields of an object after those in `done`. -/
def members (fuel : Nat) (done : List (String × Json)) (cs : List Char) : Attempt (Json × List Char) :=
  match fuel with
  | 0 => .error (.expectingName, cs.length)
  | fuel + 1 =>
    match cs with
    | '"' :: rest => do
      let (name, rest) ← stringAfterQuote rest
      match skipBlanks rest with
      | ':' :: rest => do
        let (v, rest) ← value fuel (skipBlanks rest)
        let done := Entries.put name v done
        match skipBlanks rest with
        | '\x7d' :: rest => return (.object done, rest)
        | ',' :: rest => members fuel done (skipBlanks rest)
        | rest => throw (.expectingComma, rest.length)
      | rest => throw (.expectingColon, rest.length)
    | cs => .error (.expectingName, cs.length)

end

/-! ## Whole texts -/

/-- The value that a text holds, blanks around it allowed. -/
def readChars (cs : List Char) : Except ReadError Json :=
  let failAt (fault : Fault) (left : Nat) := Except.error (.after fault (cs.take (cs.length - left)))
  match cs with
  | '\uFEFF' :: _ => failAt .byteOrderMark cs.length
  | cs =>
    match value (2 * cs.length + 2) (skipBlanks cs) with
    | .error (fault, left) => failAt fault left
    | .ok (v, rest) =>
      match skipBlanks rest with
      | [] => .ok v
      | rest => failAt .extraData rest.length

/-- The value that a text holds. -/
def read (s : String) : Except ReadError Json :=
  readChars s.toList

end DesignMarkup.Json
