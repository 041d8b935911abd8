import DesignMarkup.Argument
import DesignMarkup.Design.Error

/-!
# `Lookup` — pages and nodes in file data

File data come from outside and may have any shape, so a look-up can also fail because a value has no
fields or no elements. Searches go in document order and stop at the first hit; what lies behind it is
not looked at.

## Contents

* `LookupError`: why a look-up fails;
* `fieldsOf`, `elementsOf`: the access to values of any shape;
* `findMainNode`: the node that saved or fetched node data are about;
* `listPages`, `findPage`: the pages of a file;
* `findFrame`: a node below a page.
-/

namespace DesignMarkup

/-- Why a look-up fails. -/
inductive LookupError where
  /-- A value that is not an object was asked for a field. -/
  | noFields (value : Json)
  /-- A value was gone through that has no elements. -/
  | noElements (value : Json)
  /-- An array or an object stands where a name belongs. -/
  | badName (value : Json)
  /-- There is no page or node with the name. -/
  | notFound (error : DataError)

namespace Lookup

open Json (fieldOrNull)

/-! ## Access to values of any shape -/

/-- The fields of an object. -/
def fieldsOf : Json → Except LookupError (List (String × Json))
  | .object fields => .ok fields
  | v => .error (.noFields v)

/-- The elements of a value: of an array its items, of an object its field names, of a string its
characters. -/
def elementsOf : Json → Except LookupError (List Json)
  | .array items => .ok items
  | .object fields => .ok ((Entries.keys fields).map .string)
  | .string s => .ok (s.toList.map fun c => .string (String.singleton c))
  | v => .error (.noElements v)

/-- The value of a field, or another if the field is missing. -/
def fieldOr (fields : List (String × Json)) (name : String) (other : Json) : Json :=
  (Entries.get? name fields).getD other

/-- The fields of a value that counts as present; any other has none. -/
def fieldsOrNone (v : Json) : Except LookupError (List (String × Json)) :=
  if v.isTruthy then fieldsOf v else .ok []

/-! ## The main node -/

/-- The node that an entry of a node response is about. -/
def entryNode : Json → Option Json
  | .object fields => some ((fieldOrNull fields "document").orElse (.object fields))
  | _ => none

/-- **The main node**: of the first entry of a node response, or the data themselves if they have a
type. -/
def findMainNode : Json → Option Json
  | .object fields =>
    match fieldOrNull fields "nodes" with
    | .object [] => none
    | .object ((_, entry) :: _) => entryNode entry
    | _ => if (fieldOrNull fields "type").isTruthy then some (.object fields) else none
  | _ => none

/-! ## Pages -/

/-- The elements of the children of a file's document. -/
def pagesOf (file : Json) : Except LookupError (List Json) := do
  let document ← fieldsOrNone (fieldOrNull (← fieldsOf file) "document")
  elementsOf (fieldOr document "children" (.array []))

/-- A page as it is listed. -/
structure PageEntry where
  name : Json
  id : Json

/-- The entry of a page; a missing name or id is empty. -/
def pageEntry (page : Json) : Except LookupError PageEntry := do
  let fields ← fieldsOf page
  return ⟨fieldOr fields "name" (.string ""), fieldOr fields "id" (.string "")⟩

/-- **The pages of a file.** -/
def listPages (file : Json) : Except LookupError (List PageEntry) := do
  (← pagesOf file).mapM pageEntry

/-- The object has the name; nothing is the name of an object whose name is an empty array. -/
def hasName (fields : List (String × Json)) (name : Argument) : Bool :=
  match fieldOrNull fields "name", name with
  | .string s, .text t => s == t
  | .array [], .empty => true
  | _, _ => false

/-- The first of the values that has the name. -/
def firstNamed (name : Argument) : List Json → Except LookupError (Option (List (String × Json)))
  | [] => .ok none
  | v :: rest => do
    let fields ← fieldsOf v
    if hasName fields name then return some fields else firstNamed name rest

/-- **The page with a name.** -/
def findPage (file : Json) (name : Argument) : Except LookupError (List (String × Json)) := do
  match ← firstNamed name (← pagesOf file) with
  | some fields => return fields
  | none => throw (.notFound (.pageNotFound name.shown))

/-! ## Nodes below a page -/

mutual

/-- The first node with the name among a node and those below it, parents before children. -/
def findNode (name : Argument) : Json → Except LookupError (Option (List (String × Json)))
  | .object fields => if hasName fields name then .ok (some fields) else findBelow name fields
  | v => .error (.noFields v)

/-- The first node with the name in the field `children` of a node. Children that do not count as
present are none; a text or an object in their place has elements without fields. -/
def findBelow (name : Argument) :
    List (String × Json) → Except LookupError (Option (List (String × Json)))
  | [] => .ok none
  | (key, v) :: rest =>
    if key = "children" then
      match v with
      | .array items => findAmong name items
      | v =>
        if !v.isTruthy then .ok none
        else do
          let _ ← elementsOf v
          throw (.noFields v)
    else findBelow name rest

/-- The first node with the name among these nodes and those below them. -/
def findAmong (name : Argument) : List Json → Except LookupError (Option (List (String × Json)))
  | [] => .ok none
  | v :: rest => do
    match ← findNode name v with
    | some fields => return some fields
    | none => findAmong name rest

end

/-- **The node with a name below a page**, the page itself left out. -/
def findFrame (page : List (String × Json)) (name : Argument) :
    Except LookupError (List (String × Json)) := do
  match ← findBelow name page with
  | some fields => return fields
  | none => throw (.notFound (.frameNotFound name.shown))

end Lookup

end DesignMarkup
