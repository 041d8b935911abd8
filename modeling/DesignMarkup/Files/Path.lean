/-!
# `Files.Path` — paths as they are written and the places they name

A path keeps whether it is absolute and its components; empty components and single dots are dropped
when it is read, double dots stay. A place is a list of components from the root of all folders.

## Contents

* `Path`, `Path.read`, `Path.text`: paths and their written form;
* `Path.append`, `Path.parent`: paths below and above;
* `joinText`: two written paths as one, as written;
* `Place`, `Place.ofText`: the place that a written path names when double dots cancel the component
  before them;
* `Place.relativeTo`: a place as seen from another.
-/

namespace DesignMarkup

/-! ## Paths -/

/-- A path. The root is empty for a relative path, a slash for an absolute one, and two slashes if
exactly two were written. -/
structure Path where
  root : String
  parts : List String
  deriving DecidableEq, Repr

namespace Path

/-- The pieces of a text between slashes. -/
def pieces : List Char → List (List Char)
  | [] => [[]]
  | c :: rest =>
    if c = '/' then [] :: pieces rest
    else
      match pieces rest with
      | [] => [[c]]
      | first :: others => (c :: first) :: others

/-- The components of a written path. -/
def components (s : String) : List String :=
  ((pieces s.toList).map String.ofList).filter fun p => p != "" && p != "."

/-- The root of a written path. -/
def rootOf (s : String) : String :=
  match s.toList with
  | '/' :: '/' :: '/' :: _ => "/"
  | '/' :: '/' :: _ => "//"
  | '/' :: _ => "/"
  | _ => ""

/-- The path that a text writes. -/
def read (s : String) : Path :=
  ⟨rootOf s, components s⟩

/-- The written form of a path; the empty relative path is a dot. -/
def text (p : Path) : String :=
  if p.root = "" ∧ p.parts = [] then "." else p.root ++ "/".intercalate p.parts

/-- The path `s` taken from the folder `p`; an absolute one stands for itself. -/
def append (p : Path) (s : String) : Path :=
  let q := read s
  if q.root = "" then ⟨p.root, p.parts ++ q.parts⟩ else q

/-- The path without its last component. -/
def parent (p : Path) : Path :=
  ⟨p.root, p.parts.dropLast⟩

end Path

/-- A written path below a written folder, with a slash between them if the folder has none at its end;
an absolute path stands for itself. -/
def joinText (folder path : String) : String :=
  if path.toList.head? = some '/' then path
  else if folder = "" ∨ folder.toList.getLast? = some '/' then folder ++ path
  else folder ++ "/" ++ path

/-! ## Places -/

/-- A place: the components on the way from the root, which is written as one slash or as two. -/
structure Place where
  root : String
  parts : List String
  deriving DecidableEq, Repr

namespace Place

/-- One more component: double dots take the last one away, above the root there is only the root. -/
def step (parts : List String) (component : String) : List String :=
  if component = ".." then parts.dropLast else parts ++ [component]

/-- **The place of a written path** that is read in the folder `folder`. -/
def ofText (folder : List String) (s : String) : Place :=
  let p := Path.read s
  if p.root = "" then ⟨"/", p.parts.foldl step folder⟩ else ⟨p.root, p.parts.foldl step []⟩

/-- The folder that a place lies in. -/
def parent (p : Place) : Place :=
  ⟨p.root, p.parts.dropLast⟩

/-- The components of `parts` without those that it shares with `folder` from the start, after one
pair of double dots for each component of `folder` that is not shared. -/
def relativeParts : List String → List String → List String
  | a :: folder, b :: parts =>
    if a = b then relativeParts folder parts
    else (List.replicate (folder.length + 1) "..") ++ b :: parts
  | folder, parts => List.replicate folder.length ".." ++ parts

/-- A place as a path from a folder. -/
def relativeTo (folder : List String) (p : Place) : String :=
  Path.text ⟨"", relativeParts folder p.parts⟩

end Place

end DesignMarkup
