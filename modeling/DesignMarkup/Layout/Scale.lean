import DesignMarkup.Number

/-!
# `Layout.Scale` — the steps of the spacing scale

Lengths of a design are continuous, the spacing classes of the page come in six steps.

## Contents

* `steps`: the scale;
* `nearestStep`: the step nearest to a whole number of pixels;
* `nearestScale`: the step of a length.
-/

namespace DesignMarkup.Layout

/-- The steps with their pixels, from low to high. -/
def steps : List (Nat × Int) :=
  [(0, 0), (1, 4), (2, 8), (3, 12), (4, 16), (5, 24)]

/-- The distance of two whole numbers. -/
def distance (a b : Int) : Nat :=
  (a - b).natAbs

/-- The nearer of the step found so far, with its distance, and the next step; on a tie the one found
stays. -/
def nearer (pixels : Int) (found : Nat × Nat) (next : Nat × Int) : Nat × Nat :=
  let d := distance pixels next.2
  if d < found.2 then (next.1, d) else found

/-- The step nearest to a whole number of pixels, the lower one on a tie. -/
def nearestStep (pixels : Int) : Nat :=
  (steps.foldl (nearer pixels) (0, distance pixels 0)).1

/-- The step of a length; a length that is not set or zero has step zero. -/
def nearestScale (length : Option Number) : Except RoundingError Nat :=
  match length with
  | none => .ok 0
  | some n => if n.isZero then .ok 0 else nearestStep <$> n.roundHalfUp

end DesignMarkup.Layout
