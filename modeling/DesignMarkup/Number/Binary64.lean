/-!
# `Number.Binary64` — double-precision numbers as exact data

A finite double is a sign, a whole significand and a power of two, held in the one canonical form that
each value has. Every operation computes its exact result as a quotient of whole numbers and rounds
once, to the nearest double with ties to the even significand, so nothing here depends on the
arithmetic of the machine that runs it.

## Contents

* `twoPow`, `tenPow`: powers;
* `Finite`, `Binary64`: the values;
* `Finite.num`, `Finite.den`: the exact quotient that a finite double denotes;
* `round`, `ofInt?`, `ofDecimal`: rounding of quotients, whole numbers and decimal numerals;
* `add`, `neg`, `sub`, `scale`, `Finite.floor`: arithmetic;
* `lt`, `eq`, `isZero`, `whole?`: comparison and tests.
-/

namespace DesignMarkup

namespace Binary64

/-! ## Powers -/

/-- A power of two. -/
def twoPow (n : Nat) : Nat :=
  Nat.pow 2 n

/-- A power of ten. -/
def tenPow (n : Nat) : Nat :=
  Nat.pow 10 n

theorem twoPow_pos (n : Nat) : 0 < twoPow n :=
  Nat.two_pow_pos n

theorem tenPow_pos (n : Nat) : 0 < tenPow n :=
  Nat.pow_pos (by decide)

/-! ## Values -/

/-- The parts of a double in canonical form: the significand has 53 bits, and it has fewer only at the
least exponent. Zero is the significand `0` at the least exponent. -/
def Canonical (significand : Nat) (exponent : Int) : Prop :=
  significand < twoPow 53 ∧ -1074 ≤ exponent ∧ exponent ≤ 971 ∧
    (twoPow 52 ≤ significand ∨ exponent = -1074)

instance (significand : Nat) (exponent : Int) : Decidable (Canonical significand exponent) := by
  unfold Canonical; infer_instance

/-- A finite double: `± significand · 2 ^ exponent`. -/
structure Finite where
  negative : Bool
  significand : Nat
  exponent : Int
  canonical : Canonical significand exponent
  deriving DecidableEq

end Binary64

/-- A double-precision number. -/
inductive Binary64 where
  | finite (x : Binary64.Finite)
  | infinity (negative : Bool)
  | nan
  deriving DecidableEq

namespace Binary64

/-- Zero with a sign. -/
def zero (negative : Bool) : Binary64 :=
  .finite ⟨negative, 0, -1074, by decide⟩

instance : Inhabited Binary64 := ⟨zero false⟩

/-! ## The exact value of a finite double -/

/-- A whole number with a sign given apart. -/
def signed (negative : Bool) (n : Nat) : Int :=
  if negative then -(n : Int) else n

/-- Numerator of the magnitude. -/
def Finite.magnitude (x : Finite) : Nat :=
  x.significand * twoPow x.exponent.toNat

/-- Numerator of the exact value `num / den`. -/
def Finite.num (x : Finite) : Int :=
  signed x.negative x.magnitude

/-- Denominator of the exact value `num / den`, a power of two. -/
def Finite.den (x : Finite) : Nat :=
  twoPow (-x.exponent).toNat

theorem Finite.den_pos (x : Finite) : 0 < x.den :=
  twoPow_pos _

/-! ## Rounding -/

/-- The quotient `num / den` rounded to the nearest whole number, a half to the even one. -/
def roundHalfEven (num den : Nat) : Nat :=
  let q := num / den
  let r := num % den
  if 2 * r < den then q
  else if den < 2 * r then q + 1
  else if q % 2 = 0 then q else q + 1

/-- The greatest `e` with `2 ^ e ≤ num / den`, for a positive quotient. -/
def floorLog2 (num den : Nat) : Int :=
  let e : Int := (num.log2 : Int) - (den.log2 : Int)
  if den * twoPow e.toNat ≤ num * twoPow (-e).toNat then e else e - 1

/-- The double with these parts; a magnitude beyond the greatest double is an infinity. -/
def ofParts (negative : Bool) (significand : Nat) (exponent : Int) : Binary64 :=
  if h : Canonical significand exponent then .finite ⟨negative, significand, exponent, h⟩
  else .infinity negative

/-- The double nearest to `± num / den`, ties to the even significand. -/
def round (negative : Bool) (num den : Nat) : Binary64 :=
  if num = 0 then zero negative
  else
    let e := max (-1074) (floorLog2 num den - 52)
    let q := roundHalfEven (num * twoPow (-e).toNat) (den * twoPow e.toNat)
    if q = twoPow 53 then ofParts negative (twoPow 52) (e + 1) else ofParts negative q e

/-- The double nearest to a quotient with a signed numerator. -/
def roundInt (num : Int) (den : Nat) : Binary64 :=
  round (num < 0) num.natAbs den

/-- The double nearest to a whole number, unless it lies beyond the greatest double. -/
def ofInt? (n : Int) : Option Binary64 :=
  match roundInt n 1 with
  | .finite x => some (.finite x)
  | _ => none

/-- The double nearest to `± digits · 10 ^ exponent`. Far outside the range of the doubles the answer is
an infinity or zero, without computing the power. -/
def ofDecimal (negative : Bool) (digits : Nat) (exponent : Int) : Binary64 :=
  let top : Int := (Nat.toDigits 10 digits).length + exponent
  if digits = 0 then zero negative
  else if 310 < top then .infinity negative
  else if top < -330 then zero negative
  else round negative (digits * tenPow exponent.toNat) (tenPow (-exponent).toNat)

/-! ## Arithmetic -/

/-- The negated value. -/
def neg : Binary64 → Binary64
  | .finite x => .finite { x with negative := !x.negative }
  | .infinity s => .infinity (!s)
  | .nan => .nan

/-- The correctly rounded sum. A sum that is exactly zero is negative only if both terms are. -/
def add : Binary64 → Binary64 → Binary64
  | .finite x, .finite y =>
    let num := x.num * y.den + y.num * x.den
    if num = 0 then zero (x.negative && y.negative) else roundInt num (x.den * y.den)
  | .infinity s, .infinity t => if s = t then .infinity s else .nan
  | .infinity s, .finite _ => .infinity s
  | .finite _, .infinity t => .infinity t
  | _, _ => .nan

/-- The correctly rounded difference. -/
def sub (x y : Binary64) : Binary64 :=
  x.add y.neg

/-- The correctly rounded product with a positive whole number. -/
def scale (k : Nat) : Binary64 → Binary64
  | .finite x => round x.negative (k * x.magnitude) x.den
  | .infinity s => .infinity s
  | .nan => .nan

/-- One half. -/
def half : Binary64 :=
  round false 1 2

/-- The greatest whole number that is not above a finite value. -/
def Finite.floor (x : Finite) : Int :=
  x.num / x.den

/-! ## Comparison -/

/-- Both zeros are zero. -/
def isZero : Binary64 → Bool
  | .finite x => x.significand == 0
  | _ => false

/-- Strict order; nothing is below or above what is not a number. -/
def lt : Binary64 → Binary64 → Bool
  | .finite x, .finite y => x.num * y.den < y.num * x.den
  | .infinity s, .infinity t => s && !t
  | .infinity s, .finite _ => s
  | .finite _, .infinity t => !t
  | _, _ => false

/-- Equality of values: the zeros are equal, and what is not a number differs from everything. -/
def eq : Binary64 → Binary64 → Bool
  | .finite x, .finite y => x.num * y.den == y.num * x.den
  | .infinity s, .infinity t => s == t
  | _, _ => false

/-- Strict order against a whole number on the right. -/
def ltInt : Binary64 → Int → Bool
  | .finite x, n => x.num < n * x.den
  | .infinity s, _ => s
  | .nan, _ => false

/-- Strict order against a whole number on the left. -/
def intLt (n : Int) : Binary64 → Bool
  | .finite x => n * x.den < x.num
  | .infinity s => !s
  | .nan => false

/-- Equality with a whole number. -/
def eqInt : Binary64 → Int → Bool
  | .finite x, n => x.num == n * x.den
  | _, _ => false

/-- The value as a whole number, if it is one. -/
def whole? : Binary64 → Option Int
  | .finite x => if x.num % x.den = 0 then some x.floor else none
  | _ => none

end Binary64

end DesignMarkup
