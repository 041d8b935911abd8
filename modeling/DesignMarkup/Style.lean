import DesignMarkup.Design

/-!
# `Style` — style declarations of a node

What a node looks like, as declarations for the stylesheet. Property names are in camel case here.
A property whose source is missing is left out.

## Contents

* `pixels`, `colorText`, `fillText`: values;
* `Layer.declarations`: the appearance of a node that is not a text;
* `Layer.typography`: the setting of a text.
-/

namespace DesignMarkup

/-- The declarations of one rule, in order. -/
abbrev Declarations := List (String × String)

namespace Style

/-! ## Values -/

/-- A length in pixels. -/
def pixels (n : Number) : String :=
  n.cssText ++ "px"

/-- A channel on the scale from 0 to 255. -/
def channel (n : Number) : Except RoundingError Int :=
  (n.scale 255).roundHalfUp

/-- A colour; its opacity is written only if it is below one. -/
def colorText (c : Color) : Except RoundingError String := do
  let r ← channel c.red
  let g ← channel c.green
  let b ← channel c.blue
  let channels := toString r ++ ", " ++ toString g ++ ", " ++ toString b
  if c.alpha.ltInt 1 then return "rgba(" ++ channels ++ ", " ++ c.alpha.cssText ++ ")"
  else return "rgb(" ++ channels ++ ")"

/-- A colour that may be missing; without one nothing is painted. -/
def colorOrNone : Option Color → Except RoundingError String
  | none => .ok "transparent"
  | some c => colorText c

/-- The colour of a solid paint. -/
def fillText (p : Paint) : Except RoundingError (Option String) :=
  if p.isSolid then some <$> colorOrNone p.color else .ok none

/-- The colour of the first paint, if it is solid. -/
def firstFill : List Paint → Except RoundingError (Option String)
  | [] => .ok none
  | p :: _ => fillText p

/-- A drop shadow. -/
def shadowText (e : Effect) : Except RoundingError String := do
  let color ← colorOrNone e.color
  return " ".intercalate
    [pixels e.offsetX, pixels e.offsetY, pixels e.radius, pixels e.spread, color]

/-! ## Declarations -/

/-- A declaration if its value is there. -/
def declare (property : String) (value : Option String) : Declarations :=
  value.toList.map fun v => (property, v)

/-- A length that is given and not zero. -/
def length (n : Option Number) : Option String :=
  (n.filter (!·.isZero)).map pixels

/-- Text alignment; an unknown one is to the left. -/
def alignText (align : String) : String :=
  match align with
  | "CENTER" => "center"
  | "RIGHT" => "right"
  | "JUSTIFIED" => "justify"
  | _ => "left"

end Style

open Style in
/-- **The appearance of a node**: background, border, shadows, corners and size, in this order. -/
def Layer.declarations (l : Layer) : Except RoundingError Declarations := do
  let background ← firstFill l.fills
  let stroke ← firstFill l.strokes
  let shadows ← (l.effects.filter Effect.isShown).mapM shadowText
  let border := do
    let color ← stroke
    let weight ← length l.strokeWeight
    return weight ++ " solid " ++ color
  return declare "backgroundColor" background ++ declare "border" border ++
    declare "boxShadow" (if shadows.isEmpty then none else some (", ".intercalate shadows)) ++
    declare "borderRadius" (length l.cornerRadius) ++
    declare "width" (length l.width) ++ declare "height" (length l.height)

open Style in
/-- **The setting of a text**: size, weight, line height, spacing and alignment, in this order. -/
def Layer.typography (l : Layer) : Declarations :=
  let s := l.textStyle
  declare "fontSize" (length s.fontSize) ++
    declare "fontWeight" ((s.fontWeight.filter (!·.isZero)).map Number.cssText) ++
    declare "lineHeight" (length s.lineHeight) ++
    declare "letterSpacing" (length s.letterSpacing) ++
    declare "textAlign" ((s.align.filter (· != "")).map alignText)

end DesignMarkup
