import DesignMarkup.Text.Ranges
import DesignMarkup.Text.Lowercase.Table

/-!
# `Text.Lowercase` — full lowercase of a text

Every character is mapped on its own, with two exceptions: the capital I with a dot becomes an `i` and
a combining dot, and the capital sigma takes its final form at the end of a word.

## Contents

* `lowerChar`: the mapping of one character without context;
* `sigma`: the form of a sigma between what stands before and after it;
* `lowercase`: the mapping of a text.
-/

namespace DesignMarkup.Text

/-- The lowercase letter of a character, or the character itself. -/
def lowerChar (c : Char) : Char :=
  let n := c.toNat
  match lowerRanges.find? fun (first, last, step, _) =>
      first ≤ n && n ≤ last && (n - first) % step == 0 with
  | some (_, _, _, offset) => Char.ofNat (n + offset).toNat
  | none => c

/-- The character has case and is not ignorable. -/
def isCased (c : Char) : Bool :=
  inRanges casedRanges c

/-- The character is passed over when looking for the letters around a sigma. -/
def isIgnorable (c : Char) : Bool :=
  inRanges ignorableRanges c

/-- The first character that is not ignorable has case. -/
def meetsCased (cs : List Char) : Bool :=
  match cs.dropWhile isIgnorable with
  | [] => false
  | c :: _ => isCased c

/-- A sigma is final if a letter stands before it and none after it; `before` runs backwards. -/
def sigma (before after : List Char) : Char :=
  if meetsCased before && !meetsCased after then 'ς' else 'σ'

/-- Lowercase of what follows the characters `before`, which run backwards. -/
def lowerAfter (before : List Char) : List Char → List Char
  | [] => []
  | c :: rest =>
    let mapped := if c = 'Σ' then [sigma before rest]
      else if c = 'İ' then ['i', '\u0307']
      else [lowerChar c]
    mapped ++ lowerAfter (c :: before) rest

/-- The lowercase of a text. -/
def lowercase (cs : List Char) : List Char :=
  lowerAfter [] cs

end DesignMarkup.Text
