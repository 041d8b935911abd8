import DesignMarkup.Design
import DesignMarkup.Entries
import DesignMarkup.Layout.Scale

/-!
# `Layout.Classes` — utility classes of a node

Padding, gaps and the flow of children become classes of the page's style framework.

## Contents

* `gapClasses`, `paddingClasses`, `spacingClasses`: distances;
* `flexClasses`: the flow of children;
* `mergeClasses`: groups of classes as one list without repetition.
-/

namespace DesignMarkup.Layout

/-! ## Distances -/

/-- A class of the spacing scale, such as `pt-3`. -/
def scaleClass (stem : String) (step : Nat) : String :=
  stem ++ "-" ++ toString step

/-- The gap between children, unless its step is zero. -/
def gapClasses (l : Layer) : Except RoundingError (List String) :=
  if isSet l.itemSpacing then do
    let gap ← nearestScale l.itemSpacing
    return if gap = 0 then [] else [scaleClass "gap" gap]
  else .ok []

/-- Two measures are equal: both not set, or equal numbers. -/
def sameMeasure : Option Number → Option Number → Bool
  | none, none => true
  | some a, some b => a.equals b
  | _, _ => false

/-- The class of one side, if the side has padding. -/
def sideClasses (stem : String) (length : Option Number) : Except RoundingError (List String) :=
  if isSet length then do
    let step ← nearestScale length
    return [scaleClass stem step]
  else .ok []

/-- Padding that is symmetric in both directions: one class if both have the same step, else one for
each direction whose step is not zero. -/
def symmetricClasses (horizontal vertical : Option Number) : Except RoundingError (List String) := do
  let h ← nearestScale horizontal
  let v ← nearestScale vertical
  if h = v then return [scaleClass "p" h]
  else
    return (if h = 0 then [] else [scaleClass "px" h]) ++ (if v = 0 then [] else [scaleClass "py" v])

/-- The padding of a node. -/
def paddingClasses (p : Padding) : Except RoundingError (List String) :=
  if !p.isSet then .ok []
  else if sameMeasure p.left p.right && sameMeasure p.top p.bottom then
    symmetricClasses p.left p.top
  else do
    let left ← sideClasses "ps" p.left
    let right ← sideClasses "pe" p.right
    let top ← sideClasses "pt" p.top
    let bottom ← sideClasses "pb" p.bottom
    return left ++ right ++ top ++ bottom

/-- **Spacing.** The padding of a node, then its gap. -/
def spacingClasses (l : Layer) : Except RoundingError (List String) := do
  let padding ← paddingClasses l.padding
  let gap ← gapClasses l
  return padding ++ gap

/-! ## The flow of children -/

/-- Classes of the placement along the main axis. -/
def justifyClasses : List (String × String) :=
  [("MIN", "justify-content-start"), ("CENTER", "justify-content-center"),
   ("MAX", "justify-content-end"), ("SPACE_BETWEEN", "justify-content-between"),
   ("SPACE_AROUND", "justify-content-around"), ("SPACE_EVENLY", "justify-content-evenly")]

/-- Classes of the placement across the main axis. -/
def alignClasses : List (String × String) :=
  [("MIN", "align-items-start"), ("CENTER", "align-items-center"), ("MAX", "align-items-end"),
   ("STRETCH", "align-items-stretch")]

/-- The class of a direction, if it has one. -/
def directionClasses (mode : String) : List String :=
  if mode = "HORIZONTAL" then ["flex-row"]
  else if mode = "VERTICAL" then ["flex-column"]
  else []

/-- The class of a placement, if the table has one. -/
def placementClasses (table : List (String × String)) (placement : Option String) : List String :=
  (placement.bind (Entries.get? · table)).toList

/-- **Flow.** The flex classes of a node with a layout, its gap last; none without a layout. -/
def flexClasses (l : Layer) : Except RoundingError (List String) :=
  match l.layoutMode.filter (· != "") with
  | none => .ok []
  | some mode => do
    let gap ← gapClasses l
    return "d-flex" :: directionClasses mode ++ placementClasses justifyClasses l.primaryAlign ++
      placementClasses alignClasses l.counterAlign ++ gap

/-! ## Merging -/

/-- One more class after those in `merged`, unless it is empty or there already. -/
def addClass (merged : List String) (c : String) : List String :=
  if c = "" ∨ c ∈ merged then merged else merged ++ [c]

/-- Groups of classes as one list: no empty class, and each class where it first occurs. -/
def mergeClasses (groups : List (List String)) : List String :=
  groups.flatten.foldl addClass []

end DesignMarkup.Layout
