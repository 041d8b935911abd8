import DesignMarkup.Text.Ranges

/-!
# `Text.WhiteSpace` — blank characters and the words between them

## Contents

* `isBlank`: the class of blank characters;
* `trim`: text without the blanks at its ends;
* `joinRuns`: every run of blanks replaced by one character.
-/

namespace DesignMarkup.Text

/-- The blank characters: the ASCII blanks, the four information separators, next line, and every space
or line or paragraph separator of Unicode. -/
def blankRanges : List (Nat × Nat) :=
  [(0x9, 0xD), (0x1C, 0x20), (0x85, 0x85), (0xA0, 0xA0), (0x1680, 0x1680), (0x2000, 0x200A),
   (0x2028, 0x2029), (0x202F, 0x202F), (0x205F, 0x205F), (0x3000, 0x3000)]

/-- The character is blank. -/
def isBlank (c : Char) : Bool :=
  inRanges blankRanges c

/-- Text without the blanks at its ends. -/
def trim (cs : List Char) : List Char :=
  ((cs.dropWhile isBlank).reverse.dropWhile isBlank).reverse

/-- Text in which every run of blanks is the single character `mark`; `inRun` tells that the character
before was blank. -/
def joinRuns (mark : Char) (inRun : Bool) : List Char → List Char
  | [] => []
  | c :: rest =>
    if isBlank c then
      if inRun then joinRuns mark true rest else mark :: joinRuns mark true rest
    else c :: joinRuns mark false rest

end DesignMarkup.Text
