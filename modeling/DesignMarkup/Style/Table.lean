import DesignMarkup.Entries
import DesignMarkup.Style
import DesignMarkup.Text.Lowercase

/-!
# `Style.Table` — the stylesheet as it grows

A table binds class names to declarations, in the order in which the names first received some.

## Contents

* `propertyText`: a property in its written form;
* `StyleTable`, `record`, `contains`: the table;
* `ruleText`, `renderRule`, `toCss`: the table as text.
-/

namespace DesignMarkup

/-- A property in its written form: a hyphen before every capital letter, and all in lowercase. -/
def Style.propertyText (name : String) : String :=
  String.ofList <| Text.lowercase <| name.toList.flatMap fun c =>
    if c.isUpper then ['-', c] else [c]

/-- The rules of a stylesheet. -/
structure StyleTable where
  rules : List (String × Declarations)
  deriving DecidableEq, Repr

namespace StyleTable

/-- A table without rules. -/
def empty : StyleTable :=
  ⟨[]⟩

/-- **Recording.** A class name bound to declarations: a name that is there keeps its place, and no
declarations at all change nothing. -/
def record (t : StyleTable) (name : String) (declarations : Declarations) : StyleTable :=
  if declarations.isEmpty then t else ⟨Entries.put name declarations t.rules⟩

/-- The class names in order. -/
def names (t : StyleTable) : List String :=
  Entries.keys t.rules

/-- The number of rules. -/
def size (t : StyleTable) : Nat :=
  t.rules.length

/-- The table has a rule for the class. -/
def contains (t : StyleTable) (name : String) : Bool :=
  t.names.contains name

/-! ## Text -/

/-- A declaration on its line. -/
def declarationText (d : String × String) : String :=
  "  " ++ Style.propertyText d.1 ++ ": " ++ d.2 ++ ";"

/-- A rule after a blank line. -/
def ruleText (name : String) (declarations : Declarations) : String :=
  "\n." ++ name ++ " \x7b\n" ++ "\n".intercalate (declarations.map declarationText) ++ "\n\x7d\n"

/-- The rule of a class, if it has one. -/
def renderRule (t : StyleTable) (name : String) : Option String :=
  (Entries.get? name t.rules).map (ruleText name)

/-- All rules. -/
def toCss (t : StyleTable) : String :=
  "\n".intercalate (t.rules.map fun (name, declarations) => ruleText name declarations)

end StyleTable

end DesignMarkup
