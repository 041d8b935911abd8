/-!
# `Text.Lines` — line ends

## Contents

* `unifyLineEnds`: every line end as a single line feed.
-/

namespace DesignMarkup.Text

/-- One more character after the text `out`, which runs backwards; a line feed after a carriage return
adds nothing. -/
def pushUnified : List Char × Bool → Char → List Char × Bool
  | (out, afterReturn), c =>
    if c = '\r' then ('\n' :: out, true)
    else if c = '\n' && afterReturn then (out, false)
    else (c :: out, false)

/-- Every carriage return, with the line feed after it if there is one, becomes a line feed. -/
def unifyLineEnds (cs : List Char) : List Char :=
  (cs.foldl pushUnified ([], false)).1.reverse

end DesignMarkup.Text
