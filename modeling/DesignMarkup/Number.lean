import DesignMarkup.Number.Shortest

/-!
# `Number` — the numbers of a design

A number is a whole number of any size or a double, and the two are kept apart, since they are written
differently. Comparisons between them are exact.

## Contents

* `Number`, `RoundingError`;
* `isZero`, `gtInt`, `ltInt`, `lt`, `equals`: tests;
* `roundHalfUp`: to the nearest whole number, halves upwards;
* `text`, `cssText`: the number as data and in a stylesheet.
-/

namespace DesignMarkup

/-- A whole number of any size, or a double. -/
inductive Number where
  | int (n : Int)
  | double (x : Binary64)
  deriving DecidableEq

/-- Why a number has no nearest whole number. -/
inductive RoundingError where
  /-- The value is not a number. -/
  | notANumber
  /-- The value is an infinity. -/
  | infinite
  /-- The whole number lies beyond the greatest double. -/
  | tooLarge
  deriving DecidableEq, Repr

namespace Number

instance : Inhabited Number := ⟨.int 0⟩

/-! ## Tests -/

/-- Zero in either form. -/
def isZero : Number → Bool
  | .int n => n == 0
  | .double x => x.isZero

/-- The number is above a whole number. -/
def gtInt (a : Number) (n : Int) : Bool :=
  match a with
  | .int m => n < m
  | .double x => Binary64.intLt n x

/-- The number is below a whole number. -/
def ltInt (a : Number) (n : Int) : Bool :=
  match a with
  | .int m => m < n
  | .double x => x.ltInt n

/-- Strict order of values. -/
def lt : Number → Number → Bool
  | .int m, .int n => m < n
  | .int m, .double y => Binary64.intLt m y
  | .double x, .int n => x.ltInt n
  | .double x, .double y => x.lt y

/-- Equality of values across the two forms. -/
def equals : Number → Number → Bool
  | .int m, .int n => m == n
  | .int m, .double y => y.eqInt m
  | .double x, .int n => x.eqInt n
  | .double x, .double y => x.eq y

/-! ## Arithmetic -/

/-- The nearest double; a whole number beyond the greatest double has none. -/
def toDouble : Number → Except RoundingError Binary64
  | .int n => match Binary64.ofInt? n with
    | some x => .ok x
    | none => .error .tooLarge
  | .double x => .ok x

/-- The greatest whole number that is not above a double. -/
def floorDouble : Binary64 → Except RoundingError Int
  | .finite x => .ok x.floor
  | .infinity _ => .error .infinite
  | .nan => .error .notANumber

/-- The nearest whole number, a half upwards: the floor of the double sum of the number and one half. -/
def roundHalfUp (a : Number) : Except RoundingError Int := do
  let x ← a.toDouble
  floorDouble (x.add Binary64.half)

/-- The product with a positive whole number: exact on whole numbers, rounded once on doubles. -/
def scale (k : Nat) : Number → Number
  | .int n => .int (n * k)
  | .double x => .double (x.scale k)

/-- The difference: exact on whole numbers, else the rounded difference of the doubles. -/
def sub : Number → Number → Except RoundingError Number
  | .int m, .int n => .ok (.int (m - n))
  | a, b => do
    let x ← a.toDouble
    let y ← b.toDouble
    return .double (x.sub y)

/-! ## Texts -/

/-- The number as data: a whole number in plain digits, a double by its shortest numeral. -/
def text : Number → String
  | .int n => toString n
  | .double x => x.text

/-- The number in a stylesheet: a double that is a whole number is written as one. -/
def cssText : Number → String
  | .int n => toString n
  | .double x => match x.whole? with
    | some n => toString n
    | none => x.text

end Number

end DesignMarkup
