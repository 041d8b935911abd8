import DesignMarkup.Number
import DesignMarkup.Proofs.Number.Rounding
import DesignMarkup.Proofs.Outcome

/-!
# `Proofs.Number.Bounded` — which numbers can be rounded to whole ones

A number is rounded by way of its double, so it must have one: a double must be finite, and a whole number
must lie below the bound beyond which there are no doubles. Channels of colours are multiplied before they
are rounded, which moves the bound.

## Contents

* `Number.Bounded`: a multiple of the number has a finite double;
* `roundHalfUp_succeeds_iff`: **the numbers that can be rounded**;
* `bounded_scale`: multiples;
* `bounded_of_isZero`: zero.
-/

namespace DesignMarkup

open Binary64

/-- **The `k`-fold of a number has a finite double.** -/
def Number.Bounded (k : Nat) : Number → Prop
  | .int n => k * n.natAbs < overflowBound
  | .double (.finite x) => k * x.magnitude < overflowBound * x.den
  | .double (.infinity _) => False
  | .double .nan => False

namespace Number

theorem overflowBound_pos : 0 < overflowBound :=
  Nat.lt_of_lt_of_le (twoPow_pos 1023) overflowBound_between.1

/-- A finite double is bounded, since it is a double as it is. -/
theorem bounded_finite (x : Finite) : (Number.double (.finite x)).Bounded 1 := by
  have hle := x.magnitude_le
  have hlt : greatest * x.den < overflowBound * x.den :=
    Nat.mul_lt_mul_of_pos_right (by have h := greatest_lt; omega) x.den_pos
  rw [Bounded]
  omega

/-- Other doubles are not. -/
theorem bounded_double_iff (x : Binary64) : (Number.double x).Bounded 1 ↔ IsFinite x := by
  cases x with
  | finite x => exact iff_of_true (bounded_finite x) (isFinite_finite x)
  | infinity negative => exact iff_of_false id (not_isFinite_infinity negative)
  | nan => exact iff_of_false id not_isFinite_nan

/-! ## Rounding -/

theorem toDouble_int_succeeds_iff (n : Int) :
    Succeeds (Number.int n).toDouble ↔ (Number.int n).Bounded 1 := by
  rw [Bounded, Nat.one_mul, ← Nat.mul_one overflowBound,
    ← round_finite_iff (decide (n < 0)) Nat.one_pos, ← roundInt, toDouble, ofInt?]
  cases roundInt n 1 with
  | finite x => exact iff_of_true (succeeds_ok _) (isFinite_finite x)
  | infinity negative =>
    exact iff_of_false (not_succeeds_error _) (not_isFinite_infinity negative)
  | nan => exact iff_of_false (not_succeeds_error _) not_isFinite_nan

theorem floorDouble_add_half_succeeds (x : Finite) :
    Succeeds (floorDouble ((Binary64.finite x).add half)) := by
  obtain ⟨y, hy⟩ := add_half_finite x
  rw [hy]
  exact succeeds_ok _

/-- The double of a whole number is finite. -/
theorem exists_finite_of_toDouble_int {n : Int} {x : Binary64} (h : (Number.int n).toDouble = .ok x) :
    ∃ y, x = .finite y := by
  rw [toDouble, ofInt?] at h
  cases hr : roundInt n 1 with
  | finite y => rw [hr] at h; exact ⟨y, (Except.ok.inj h).symm⟩
  | infinity negative => rw [hr] at h; cases h
  | nan => rw [hr] at h; cases h

/-- **The numbers that can be rounded** are the bounded ones. -/
theorem roundHalfUp_succeeds_iff (a : Number) : Succeeds a.roundHalfUp ↔ a.Bounded 1 := by
  -- a whole number fails for want of a double, a double for want of a floor
  cases a with
  | int n =>
    rw [roundHalfUp, succeeds_bind_iff (x := (Number.int n).toDouble), toDouble_int_succeeds_iff]
    · exact and_iff_left trivial
    · intro x hx
      obtain ⟨y, rfl⟩ := exists_finite_of_toDouble_int hx
      exact iff_of_true (floorDouble_add_half_succeeds y) trivial
  | double x =>
    cases x with
    | finite x => exact iff_of_true (floorDouble_add_half_succeeds x) (bounded_finite x)
    | infinity negative => exact iff_of_false (not_succeeds_error _) id
    | nan => exact iff_of_false (not_succeeds_error _) id

/-- A multiple is bounded if the number is with that factor. -/
theorem bounded_scale (k : Nat) (a : Number) : (a.scale k).Bounded 1 ↔ a.Bounded k := by
  cases a with
  | int n =>
    have habs : (n * (k : Int)).natAbs = k * n.natAbs := by
      rw [Int.natAbs_mul, Int.natAbs_natCast, Nat.mul_comm]
    rw [scale, Bounded, Bounded, Nat.one_mul, habs]
  | double x =>
    cases x with
    | finite x =>
      rw [scale, Binary64.scale, bounded_double_iff, round_finite_iff x.negative x.den_pos]
      exact Iff.rfl
    | infinity negative => exact Iff.rfl
    | nan => exact Iff.rfl

/-! ## Zero -/

theorem bounded_of_isZero {a : Number} (h : a.isZero = true) : a.Bounded 1 := by
  cases a with
  | int n =>
    have hn : n = 0 := by simpa [isZero] using h
    rw [hn]
    exact overflowBound_pos
  | double x =>
    cases x with
    | finite x => exact bounded_finite x
    | infinity negative => cases h
    | nan => cases h

end Number

end DesignMarkup
