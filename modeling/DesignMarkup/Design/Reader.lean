import DesignMarkup.Design
import DesignMarkup.Design.Error

/-!
# `Design.Reader` — the tree of a design from its data

Every field is checked once, here. A field that is missing or null is not set; a truth value where a
measure belongs counts as not set; anything else of the wrong kind is an error. Lists of paints and
effects leave out what is not an object.

## Contents

* `readNumber`, `readString`, `readObject`: the checks of single fields;
* `readColor`, `readPaints`, `readEffects`, `readTextStyle`: parts of the appearance;
* `Layer.read`, `Node.read`: a node without and with its children.
-/

namespace DesignMarkup

open Json (fieldOrNull)

/-! ## Single fields -/

/-- A measure; null and truth values are not set. -/
def readNumber : Json → Except DataError (Option Number)
  | .null => .ok none
  | .bool _ => .ok none
  | .number n => .ok (some n)
  | v => .error (.notNumber v)

/-- A text or null. -/
def readString (field : String) : Json → Except DataError (Option String)
  | .null => .ok none
  | .string s => .ok (some s)
  | v => .error (.notString field v)

/-- The fields of an object; null has none. -/
def readObject (field : String) : Json → Except DataError (List (String × Json))
  | .null => .ok []
  | .object fields => .ok fields
  | v => .error (.notObject field v)

/-- A measure that is zero if it is not set. -/
def readOffset (v : Json) : Except DataError Number := do
  let n ← readNumber v
  return (n.filter (!·.isZero)).getD (.int 0)

/-! ## Appearance -/

/-- A channel of a colour, which must be set. -/
def readChannel (fields : List (String × Json)) (channel : String) : Except DataError Number := do
  match ← readNumber (fieldOrNull fields channel) with
  | some n => return n
  | none => throw (.channelMissing channel fields)

/-- A colour or null; without an opacity it is opaque. -/
def readColor : Json → Except DataError (Option Color)
  | .null => .ok none
  | v => do
    let fields ← readObject "color" v
    let red ← readChannel fields "r"
    let green ← readChannel fields "g"
    let blue ← readChannel fields "b"
    let alpha ← readNumber (fieldOrNull fields "a")
    return some ⟨red, green, blue, alpha.getD Color.fullAlpha⟩

/-- A paint from its fields. -/
def readPaint (fields : List (String × Json)) : Except DataError Paint := do
  let typeName ← readString "paint.type" (fieldOrNull fields "type")
  let color ← readColor (fieldOrNull fields "color")
  return ⟨typeName.getD "", color⟩

/-- The fields of those elements that are objects. -/
def objectsOf (items : List Json) : List (List (String × Json)) :=
  items.filterMap fun
    | .object fields => some fields
    | _ => none

/-- Fills or strokes; a value that does not count as present has none. -/
def readPaints (v : Json) : Except DataError (List Paint) :=
  if v.isTruthy then
    match v with
    | .array items => (objectsOf items).mapM readPaint
    | v => .error (.paintsNotArray v)
  else .ok []

/-- The radius of an effect, or else the value of its blur. -/
def effectRadius (fields : List (String × Json)) : Except DataError Json :=
  match fieldOrNull fields "radius" with
  | .null => do
    let blur ← readObject "effect.blur" (fieldOrNull fields "blur")
    return fieldOrNull blur "value"
  | v => .ok v

/-- Visibility: true, false or not given. -/
def readVisible : Json → Except DataError (Option Bool)
  | .null => .ok none
  | .bool b => .ok (some b)
  | v => .error (.visibleNotBool v)

/-- An effect from its fields. -/
def readEffect (fields : List (String × Json)) : Except DataError Effect := do
  let offset ← readObject "effect.offset" (fieldOrNull fields "offset")
  let radius ← effectRadius fields
  let visible ← readVisible (fieldOrNull fields "visible")
  let typeName ← readString "effect.type" (fieldOrNull fields "type")
  let offsetX ← readOffset (fieldOrNull offset "x")
  let offsetY ← readOffset (fieldOrNull offset "y")
  let radius ← readOffset radius
  let spread ← readOffset (fieldOrNull fields "spread")
  let color ← readColor (fieldOrNull fields "color")
  return ⟨typeName.getD "", visible, offsetX, offsetY, radius, spread, color⟩

/-- Effects; a value that does not count as present has none. -/
def readEffects (v : Json) : Except DataError (List Effect) :=
  if v.isTruthy then
    match v with
    | .array items => (objectsOf items).mapM readEffect
    | v => .error (.effectsNotArray v)
  else .ok []

/-- A text style; what is not an object sets nothing. -/
def readTextStyle : Json → Except DataError TextStyle
  | .object fields => do
    let fontSize ← readNumber (fieldOrNull fields "fontSize")
    let fontWeight ← readNumber (fieldOrNull fields "fontWeight")
    let lineHeight ← readNumber (fieldOrNull fields "lineHeightPx")
    let letterSpacing ← readNumber (fieldOrNull fields "letterSpacing")
    let align ← readString "textAlignHorizontal" (fieldOrNull fields "textAlignHorizontal")
    return ⟨fontSize, fontWeight, lineHeight, letterSpacing, align⟩
  | _ => .ok .unset

/-! ## Nodes -/

/-- What is read of a node before its children. -/
structure Heading where
  typeName : String
  name : String
  layoutMode : Option String
  id : String
  deriving DecidableEq

/-- Children must be an array unless they do not count as present. -/
def checkChildren (nodeName : String) (v : Json) : Except DataError Unit :=
  match v with
  | .array _ => .ok ()
  | v => if v.isTruthy then .error (.childrenNotArray nodeName) else .ok ()

/-- The type, the name, the layout and the id; the layout `NONE` is no layout. -/
def Heading.read (fields : List (String × Json)) : Except DataError Heading := do
  let typeName ← readString "type" (fieldOrNull fields "type")
  let name ← readString "name" (fieldOrNull fields "name")
  let layoutMode ← readString "layoutMode" (fieldOrNull fields "layoutMode")
  checkChildren (name.getD "") (fieldOrNull fields "children")
  let id ← readString "id" (fieldOrNull fields "id")
  return {
    typeName := typeName.getD ""
    name := name.getD ""
    layoutMode := layoutMode.filter (· != "NONE")
    id := id.getD "" }

/-- The padding of a node. -/
def readPadding (fields : List (String × Json)) : Except DataError Padding := do
  let left ← readNumber (fieldOrNull fields "paddingLeft")
  let right ← readNumber (fieldOrNull fields "paddingRight")
  let top ← readNumber (fieldOrNull fields "paddingTop")
  let bottom ← readNumber (fieldOrNull fields "paddingBottom")
  return ⟨left, right, top, bottom⟩

/-- The layer of a node, whose heading has been read. -/
def Layer.read (fields : List (String × Json)) (heading : Heading) : Except DataError Layer := do
  let fills ← readPaints (fieldOrNull fields "fills")
  let strokes ← readPaints (fieldOrNull fields "strokes")
  let strokeWeight ← readNumber (fieldOrNull fields "strokeWeight")
  let effects ← readEffects (fieldOrNull fields "effects")
  let cornerRadius ← readNumber (fieldOrNull fields "cornerRadius")
  let width ← readNumber (fieldOrNull fields "width")
  let height ← readNumber (fieldOrNull fields "height")
  let primaryAlign ←
    readString "primaryAxisAlignItems" (fieldOrNull fields "primaryAxisAlignItems")
  let counterAlign ←
    readString "counterAxisAlignItems" (fieldOrNull fields "counterAxisAlignItems")
  let itemSpacing ← readNumber (fieldOrNull fields "itemSpacing")
  let padding ← readPadding fields
  let characters ← readString "characters" (fieldOrNull fields "characters")
  let textStyle ← readTextStyle (fieldOrNull fields "style")
  return {
    kind := .ofName (some heading.typeName)
    name := heading.name
    id := heading.id
    typeName := heading.typeName
    layoutMode := heading.layoutMode
    fills, strokes, strokeWeight, effects, cornerRadius, width, height
    primaryAlign, counterAlign, itemSpacing, padding, characters, textStyle }

mutual

/-- **The tree of a node from its data.** The heading is read first, then the children, then the
rest of the node. -/
def Node.read : Json → Except DataError Node
  | .object fields => do
    let heading ← Heading.read fields
    let children ← readChildren fields
    let layer ← Layer.read fields heading
    return .node layer children
  | v => .error (.nodeNotObject v)

/-- The trees in the field `children`; no field, and a field that is not an array, has none. -/
def readChildren : List (String × Json) → Except DataError (List Node)
  | [] => .ok []
  | (name, v) :: rest =>
    if name = "children" then
      match v with
      | .array items => readNodes items
      | _ => .ok []
    else readChildren rest

/-- The trees of several nodes. -/
def readNodes : List Json → Except DataError (List Node)
  | [] => .ok []
  | v :: rest => do
    let n ← Node.read v
    let ns ← readNodes rest
    return n :: ns

end

end DesignMarkup
