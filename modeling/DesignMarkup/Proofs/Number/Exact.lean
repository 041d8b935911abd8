import DesignMarkup.Proofs.Number.Bounded

/-!
# `Proofs.Number.Exact` — what needs no rounding

A quotient that is the value of a double is rounded to that double: the exponent that is chosen for it is
the one of the double, since the form of a double is canonical, and the whole number of steps is its
significand. So a double is determined by its value, zero apart, which has two signs, and numbers that are
equal are both zero or have the same double, whether they are written as whole numbers or not.

## Contents

* `stepExponent_exact`, `stepCount_exact`: exponent and significand of a value;
* `roundInt_exact`: **the value of a double is rounded to it**;
* `equals_cases`: **equal numbers** have the same double.
-/

namespace DesignMarkup

namespace Binary64

/-! ## The value of a double -/

section Value

variable {num den : Nat} {x : Finite}

/-- A quotient that is the value of a double, as a rational number. -/
theorem cast_of_value (h : num * x.den = x.magnitude * den) :
    (num : ℚ) = x.significand * 2 ^ x.exponent * den := by
  have hden : (0 : ℚ) < x.den := Nat.cast_pos.mpr x.den_pos
  have hcast : (num : ℚ) * x.den = x.magnitude * den := by exact_mod_cast h
  refine mul_right_cancel₀ hden.ne' ?_
  calc (num : ℚ) * x.den = x.magnitude * den := hcast
    _ = x.significand * (2 ^ x.exponent * x.den) * den := by
      rw [Finite.magnitude, Finite.den, Nat.cast_mul, twoPow_toNat]
    _ = x.significand * 2 ^ x.exponent * den * x.den := by ring

/-- **The exponent of the value of a double is its own.** -/
theorem stepExponent_exact (hn : 0 < num) (hd : 0 < den) (h : num * x.den = x.magnitude * den) :
    stepExponent num den = x.exponent := by
  obtain ⟨hsig, hmin, -, hnormal⟩ := x.canonical
  have hvalue := cast_of_value h
  have hd' : (0 : ℚ) < den := Nat.cast_pos.mpr hd
  have habove : floorLog2 num den < 53 + x.exponent := by
    refine (zpow_lt_zpow_iff_right₀ (by norm_num : (1 : ℚ) < 2)).mp ?_
    refine lt_of_mul_lt_mul_right ?_ hd'.le
    calc (2 : ℚ) ^ floorLog2 num den * den ≤ num := floorLog2_le hn
      _ = x.significand * 2 ^ x.exponent * den := hvalue
      _ < twoPow 53 * 2 ^ x.exponent * den := by gcongr
      _ = 2 ^ (53 + x.exponent) * den := by
        rw [zpow_add₀ (by norm_num), cast_twoPow]
        norm_num
  unfold stepExponent
  rcases hnormal with hnormal | hleast
  · -- all 53 bits are used, so the exponent is not above that of the quotient
    have hbelow : 52 + x.exponent < floorLog2 num den + 1 := by
      refine (zpow_lt_zpow_iff_right₀ (by norm_num : (1 : ℚ) < 2)).mp ?_
      refine lt_of_mul_lt_mul_right ?_ hd'.le
      calc (2 : ℚ) ^ (52 + x.exponent) * den = twoPow 52 * 2 ^ x.exponent * den := by
            rw [zpow_add₀ (by norm_num), cast_twoPow]
            norm_num
        _ ≤ x.significand * 2 ^ x.exponent * den := by gcongr
        _ = num := hvalue.symm
        _ < 2 ^ (floorLog2 num den + 1) * den := lt_floorLog2 hd
    omega
  · omega

/-- A whole number is not rounded. -/
theorem roundHalfEven_mul (m : Nat) {b : Nat} (hb : 0 < b) : roundHalfEven (m * b) b = m := by
  unfold roundHalfEven
  dsimp only
  rw [Nat.mul_mod_left, Nat.mul_div_cancel m hb, if_pos hb]

/-- The number of steps of the value of a double is its significand. -/
theorem stepCount_exact (hn : 0 < num) (hd : 0 < den) (h : num * x.den = x.magnitude * den) :
    stepCount num den = x.significand := by
  have hsteps : num * twoPow (-x.exponent).toNat = x.significand * (den * twoPow x.exponent.toNat) := by
    calc num * twoPow (-x.exponent).toNat = x.magnitude * den := h
      _ = x.significand * (den * twoPow x.exponent.toNat) := by rw [Finite.magnitude]; ring
  rw [stepCount, stepExponent_exact hn hd h, hsteps]
  exact roundHalfEven_mul _ (Nat.mul_pos hd (twoPow_pos _))

/-- A value without its sign is rounded to the double, with the sign given. -/
theorem round_exact (negative : Bool) (hn : 0 < num) (hd : 0 < den)
    (h : num * x.den = x.magnitude * den) : round negative num den = .finite { x with negative } := by
  have hsig : x.significand ≠ twoPow 53 := x.canonical.1.ne
  rw [round_of_pos negative hn, stepCount_exact hn hd h, if_neg hsig, stepExponent_exact hn hd h]
  exact dif_pos x.canonical

end Value

/-- Unless it is zero, the sign of a double is that of its value. -/
theorem Finite.negative_eq {x : Finite} (h : x.num ≠ 0) : x.negative = decide (x.num < 0) := by
  unfold Finite.num signed at h ⊢
  cases hneg : x.negative <;> rw [hneg] at h <;> simp at h ⊢
  omega

/-- **The value of a double is rounded to it**, unless it is zero. -/
theorem roundInt_exact {x : Finite} {num : Int} {den : Nat} (hn : num ≠ 0) (hd : 0 < den)
    (h : num * x.den = x.num * den) : roundInt num den = .finite x := by
  have hmagnitude : num.natAbs * x.den = x.magnitude * den := by
    have habs := congrArg Int.natAbs h
    rw [Int.natAbs_mul, Int.natAbs_mul, natAbs_num] at habs
    exact habs
  have hxden : (0 : Int) < x.den := Int.natCast_pos.mpr x.den_pos
  have hden : (0 : Int) < den := Int.natCast_pos.mpr hd
  have hx : x.num ≠ 0 := by
    intro hzero
    rw [hzero, Int.zero_mul] at h
    exact (mul_ne_zero hn hxden.ne') h
  have hsign : num < 0 ↔ x.num < 0 := by
    have hscaled : num * x.den < 0 * x.den ↔ x.num * den < 0 * den := by
      rw [h, Int.zero_mul, Int.zero_mul]
    rwa [mul_lt_mul_iff_left₀ hxden, mul_lt_mul_iff_left₀ hden] at hscaled
  rw [roundInt, round_exact _ (Int.natAbs_pos.mpr hn) hd hmagnitude, decide_eq_decide.mpr hsign,
    ← Finite.negative_eq hx]

/-- **A double is determined by its value**, unless it is zero. -/
theorem Finite.eq_of_value {x y : Finite} (hx : x.num ≠ 0) (h : x.num * y.den = y.num * x.den) :
    x = y :=
  Binary64.finite.inj ((roundInt_exact hx x.den_pos rfl).symm.trans (roundInt_exact hx x.den_pos h))

theorem Finite.isZero_iff (x : Finite) : (Binary64.finite x).isZero = true ↔ x.num = 0 := by
  have hpos : twoPow x.exponent.toNat ≠ 0 := (twoPow_pos _).ne'
  rw [isZero, beq_iff_eq, ← Int.natAbs_eq_zero, natAbs_num, Finite.magnitude, Nat.mul_eq_zero,
    or_iff_left hpos]

end Binary64

namespace Number

open Binary64

/-! ## Equal numbers -/

/-- A whole number and a double that equals it are both zero, or the double is that of the number. -/
theorem eqInt_cases {x : Binary64} {m : Int} (h : x.eqInt m = true) :
    (m = 0 ∧ x.isZero = true) ∨ (m ≠ 0 ∧ x.isZero = false ∧ (Number.int m).toDouble = .ok x) := by
  cases x with
  | infinity negative => cases h
  | nan => cases h
  | finite x =>
    have hnum : x.num = m * x.den := by simpa [eqInt] using h
    have hden : (x.den : Int) ≠ 0 := (Int.natCast_pos.mpr x.den_pos).ne'
    by_cases hm : m = 0
    · rw [hm, Int.zero_mul] at hnum
      exact .inl ⟨hm, x.isZero_iff.mpr hnum⟩
    · have hx : x.num ≠ 0 := hnum ▸ mul_ne_zero hm hden
      have hdouble : roundInt m 1 = .finite x :=
        roundInt_exact hm Nat.one_pos (by rw [hnum, Nat.cast_one, Int.mul_one])
      refine .inr ⟨hm, Bool.eq_false_iff.mpr fun hzero => hx (x.isZero_iff.mp hzero), ?_⟩
      rw [toDouble, ofInt?, hdouble]

/-- Equal doubles are both zero, or they are the same. -/
theorem eq_cases {x y : Binary64} (h : x.eq y = true) :
    (x.isZero = true ∧ y.isZero = true) ∨ (x.isZero = false ∧ x = y) := by
  cases x <;> cases y <;> try cases h
  case finite.finite x y =>
    have hvalue : x.num * y.den = y.num * x.den := by simpa [Binary64.eq] using h
    by_cases hx : x.num = 0
    · rw [hx, Int.zero_mul] at hvalue
      have hxden : (x.den : Int) ≠ 0 := (Int.natCast_pos.mpr x.den_pos).ne'
      have hy : y.num = 0 := (Int.mul_eq_zero.mp hvalue.symm).resolve_right hxden
      exact .inl ⟨x.isZero_iff.mpr hx, y.isZero_iff.mpr hy⟩
    · have hne : (Binary64.finite x).isZero = false :=
        Bool.eq_false_iff.mpr fun hzero => hx (x.isZero_iff.mp hzero)
      exact .inr ⟨hne, congrArg Binary64.finite (Finite.eq_of_value hx hvalue)⟩
  case infinity.infinity s t =>
    have hsign : s = t := by simpa [Binary64.eq] using h
    exact .inr ⟨rfl, congrArg Binary64.infinity hsign⟩

/-- **Equal numbers** are both zero, or neither is and they have the same double. -/
theorem equals_cases {a b : Number} (h : a.equals b = true) :
    (a.isZero = true ∧ b.isZero = true) ∨
      (a.isZero = false ∧ b.isZero = false ∧ a.toDouble = b.toDouble) := by
  cases a with
  | int m =>
    cases b with
    | int n =>
      obtain rfl : m = n := by simpa [equals] using h
      cases hzero : (Number.int m).isZero with
      | true => exact .inl ⟨rfl, rfl⟩
      | false => exact .inr ⟨rfl, rfl, rfl⟩
    | double y =>
      obtain ⟨hm, hy⟩ | ⟨hm, hy, hdouble⟩ := eqInt_cases (show y.eqInt m = true from h)
      · exact .inl ⟨beq_iff_eq.mpr hm, hy⟩
      · exact .inr ⟨beq_eq_false_iff_ne.mpr hm, hy, hdouble⟩
  | double x =>
    cases b with
    | int n =>
      obtain ⟨hn, hx⟩ | ⟨hn, hx, hdouble⟩ := eqInt_cases (show x.eqInt n = true from h)
      · exact .inl ⟨hx, beq_iff_eq.mpr hn⟩
      · exact .inr ⟨hx, beq_eq_false_iff_ne.mpr hn, hdouble.symm⟩
    | double y =>
      obtain hzero | ⟨hx, rfl⟩ := eq_cases (show x.eq y = true from h)
      · exact .inl hzero
      · exact .inr ⟨hx, hx, rfl⟩

end Number

end DesignMarkup
