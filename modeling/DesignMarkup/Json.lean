import DesignMarkup.Entries
import DesignMarkup.Number
import DesignMarkup.Text.Quoted

/-!
# `Json` — data as it is exchanged

A JSON value keeps the order of the fields of its objects and tells whole numbers from doubles.

## Contents

* `Json`: the values;
* `fieldOrNull`: the fields of an object;
* `isTruthy`, `kindName`: which values count as present, and what kind a value is;
* `display`, `text`: a value as it is shown in messages.
-/

namespace DesignMarkup

/-- A JSON value. -/
inductive Json where
  | null
  | bool (b : Bool)
  | number (n : Number)
  | string (s : String)
  | array (items : List Json)
  | object (fields : List (String × Json))

namespace Json

instance : Inhabited Json := ⟨.null⟩

/-! ## Fields -/

/-- The value of a field, null if the field is missing. -/
def fieldOrNull (fields : List (String × Json)) (name : String) : Json :=
  (Entries.get? name fields).getD .null

/-! ## Presence and kind -/

/-- A value counts as present unless it is null, false, zero or empty. -/
def isTruthy : Json → Bool
  | .null => false
  | .bool b => b
  | .number n => !n.isZero
  | .string s => s != ""
  | .array items => !items.isEmpty
  | .object fields => !fields.isEmpty

/-- The first of two values if it counts as present, else the second. -/
def orElse (a b : Json) : Json :=
  if a.isTruthy then a else b

/-- The name of the kind of a value in messages. -/
def kindName : Json → String
  | .null => "NoneType"
  | .bool _ => "bool"
  | .number (.int _) => "int"
  | .number (.double _) => "float"
  | .string _ => "str"
  | .array _ => "list"
  | .object _ => "dict"

/-! ## Values in messages -/

mutual

/-- A value as it is shown within a message: strings in quotes. -/
def display : Json → String
  | .null => "None"
  | .bool b => if b then "True" else "False"
  | .number n => n.text
  | .string s => Text.quoted s
  | .array items => "[" ++ String.intercalate ", " (displayItems items) ++ "]"
  | .object fields => "\x7b" ++ String.intercalate ", " (displayFields fields) ++ "\x7d"

/-- The elements of an array as they are shown. -/
def displayItems : List Json → List String
  | [] => []
  | v :: rest => display v :: displayItems rest

/-- The fields of an object as they are shown. -/
def displayFields : List (String × Json) → List String
  | [] => []
  | (name, v) :: rest => (Text.quoted name ++ ": " ++ display v) :: displayFields rest

end

/-- A value as text of its own: a string as it is, any other value as it is shown. -/
def text : Json → String
  | .string s => s
  | v => v.display

end Json

end DesignMarkup
