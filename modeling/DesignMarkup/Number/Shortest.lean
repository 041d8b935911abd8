import DesignMarkup.Number.Binary64

/-!
# `Number.Shortest` — the fewest digits that read back

A finite double is written with the fewest significant digits from which rounding to the nearest double
gives it back; among numerals of that length the one nearest to the exact value is taken, and of two
equally near ones the one with the even last digit. Grids of one to seventeen digits are tried in turn,
each with the two neighbours of the value on it.

## Contents

* `Decimal`: a numeral `digits · 10 ^ exponent`;
* `Finite.shortest`: the numeral chosen for a double;
* `Decimal.layout`: positional notation for leading exponents from `-4` to `15`, exponent form outside;
* `Binary64.text`: the text of any double.
-/

namespace DesignMarkup

/-- The decimal numeral `digits · 10 ^ exponent`. -/
structure Decimal where
  digits : Nat
  exponent : Int
  deriving DecidableEq, Repr

namespace Binary64

/-! ## Choosing the digits -/

/-- The exponent of the leading decimal digit of a positive quotient. Below one the quotient is first
moved up by 325 places, past the least positive double. -/
def leadingExponent (num den : Nat) : Int :=
  if den ≤ num then (Nat.toDigits 10 (num / den)).length - 1
  else (Nat.toDigits 10 (num * tenPow 325 / den)).length - 326

/-- A numeral reads back if rounding it gives the double. -/
def Finite.readsBack (x : Finite) (d : Decimal) : Bool :=
  ofDecimal x.negative d.digits d.exponent == .finite x

/-- The better of a value's two neighbours on the grid of multiples of `10 ^ exponent`, if one reads
back. -/
def Finite.onGrid (x : Finite) (exponent : Int) : Option Decimal :=
  let num := x.magnitude * tenPow (-exponent).toNat
  let den := x.den * tenPow exponent.toNat
  let below : Decimal := ⟨num / den, exponent⟩
  let above : Decimal := ⟨num / den + 1, exponent⟩
  match x.readsBack below, x.readsBack above with
  | true, true => some ⟨roundHalfEven num den, exponent⟩
  | true, false => some below
  | false, true => some above
  | false, false => none

/-- The first grid, from one digit to seventeen, on which a neighbour reads back. -/
def Finite.shortest (x : Finite) : Decimal :=
  let lead := leadingExponent x.magnitude x.den
  ((List.range 17).findSome? fun (n : Nat) => x.onGrid (lead - n)).getD ⟨x.magnitude, 0⟩

end Binary64

/-! ## Writing a numeral -/

namespace Decimal

/-- Digits without the zeros at their end. -/
def trimZeros (ds : List Char) : List Char :=
  (ds.reverse.dropWhile (· == '0')).reverse

/-- An exponent with its sign and at least two digits. -/
def exponentText (e : Int) : List Char :=
  let ds := Nat.toDigits 10 e.natAbs
  (if e < 0 then '-' else '+') :: (if ds.length < 2 then '0' :: ds else ds)

/-- A positive numeral: positional notation, always with a point, if the exponent of the leading digit
is from `-4` to `15`; otherwise one digit before the point and an exponent. -/
def layout (d : Decimal) : List Char :=
  let written := Nat.toDigits 10 d.digits
  let e : Int := written.length - 1 + d.exponent
  let ds := trimZeros written
  if -4 ≤ e ∧ e < 16 then
    if e < 0 then ['0', '.'] ++ List.replicate (-e - 1).toNat '0' ++ ds
    else
      let whole := e.toNat + 1
      if ds.length ≤ whole then ds ++ List.replicate (whole - ds.length) '0' ++ ['.', '0']
      else ds.take whole ++ '.' :: ds.drop whole
  else
    match ds with
    | [] => []
    | [c] => c :: 'e' :: exponentText e
    | c :: rest => c :: '.' :: rest ++ 'e' :: exponentText e

end Decimal

/-- The text of a double: the shortest numeral that reads back, `0.0`, `inf` or `nan`, after the sign. -/
def Binary64.text : Binary64 → String
  | .finite x =>
    let body := if x.significand = 0 then ['0', '.', '0'] else x.shortest.layout
    String.ofList (if x.negative then '-' :: body else body)
  | .infinity negative => if negative then "-inf" else "inf"
  | .nan => "nan"

end DesignMarkup
