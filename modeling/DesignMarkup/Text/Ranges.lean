/-!
# `Text.Ranges` — classes of characters given by ranges

## Contents

* `inRanges`: membership of a character in a list of closed ranges of code points.
-/

namespace DesignMarkup.Text

/-- The code point lies in one of the ranges, ends included. -/
def inRanges (ranges : List (Nat × Nat)) (c : Char) : Bool :=
  ranges.any fun (first, last) => first ≤ c.toNat && c.toNat ≤ last

end DesignMarkup.Text
