import DesignMarkup.Text.Lowercase
import DesignMarkup.Text.WhiteSpace

/-!
# `Page.FileName` — file names from design names

## Contents

* `slug`: a name in lowercase with hyphens for blanks;
* `candidate`, `unusedFileName`: the first free file name of a slug;
* `takeFileName`, `takeFileNames`: the same with a set of names in use that is shared.
-/

namespace DesignMarkup.Page

/-- A name as part of a file name: no blanks at its ends, a hyphen for every run of blanks, all in
lowercase; an empty name is `unnamed`. -/
def slug (name : String) : String :=
  let joined := Text.joinRuns '-' false (Text.trim name.toList)
  let lowered := String.ofList (Text.lowercase joined)
  if lowered = "" then "unnamed" else lowered

/-- The file names of a slug in the order in which they are tried: without a number, then with the
numbers from 2 upwards. -/
def candidate (slug : String) (i : Nat) : String :=
  if i = 0 then slug ++ ".html" else slug ++ "-" ++ toString (i + 1) ++ ".html"

/-- A file name is taken if it is used already, or if it is that of an index. -/
def isTaken (used : List String) (fileName : String) : Bool :=
  used.contains fileName || fileName == "index.html"

/-- **The first free file name** of a name. Of the first `used.length + 2` candidates, which all differ,
one is free. -/
def unusedFileName (name : String) (used : List String) : String :=
  let base := slug name
  let i := ((List.range (used.length + 2)).find? fun i => !isTaken used (candidate base i)).getD 0
  candidate base i

/-- Takes the first free file name of a name, which is in use from then on. -/
def takeFileName (name : String) : StateM (List String) String := do
  let used ← get
  let fileName := unusedFileName name used
  set (fileName :: used)
  return fileName

/-- Takes the file names of several names, one after the other. -/
def takeFileNames (names : List String) : StateM (List String) (List String) :=
  names.mapM takeFileName

end DesignMarkup.Page
