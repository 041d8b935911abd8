import DesignMarkup.Proofs.Number.HalfUp

/-!
# `Proofs.Number.Unique` — the one nearest double

A quantity halfway between two doubles goes to the one with the even significand. That this settles every
tie is a fact about the doubles: between two with even significands there is another one, a step of the
finer of the two away, and it is nearer to the middle. So a quantity is rounded to one value, and a double
that it can be rounded to is the one that rounding finds. The quantities that go to a double form an
interval around it, and it is wide enough for every quantity that is near in proportion to the double.

## Contents

* `Finite.unsigned`: a double without its sign;
* `exists_between`, `RoundsTo.unique`: **there is one nearest double**;
* `RoundsTo.between`: what lies between a double and a quantity that goes to it;
* `relative_gap`, `roundsTo_of_near`: doubles are apart in proportion to their magnitude;
* `roundsTo_of_round`, `round_of_roundsTo`: **rounding finds the nearest double**.
-/

namespace DesignMarkup.Binary64

/-! ## Doubles without their signs -/

/-- The double without its sign. -/
def Finite.unsigned (x : Finite) : Finite :=
  { x with negative := false }

@[simp] theorem Finite.value_unsigned (x : Finite) : x.unsigned.value = |x.value| := by
  rw [abs_value, value_eq]
  rfl

theorem Finite.unsigned_pos {x : Finite} (hx : x.value ≠ 0) : 0 < x.unsigned.value := by
  rw [value_unsigned]
  exact abs_pos.mpr hx

/-- Without the sign, the value is the quotient of magnitude and denominator. -/
theorem Finite.abs_value_eq_div (x : Finite) : |x.value| = x.magnitude / x.den := by
  rw [← value_unsigned]
  rfl

theorem Finite.eq_of_unsigned_eq {x y : Finite} (hsign : x.negative = y.negative)
    (h : x.unsigned = y.unsigned) : x = y := by
  obtain ⟨negative, significand, exponent, hx⟩ := x
  obtain ⟨negative', significand', exponent', hy⟩ := y
  simp only [Finite.unsigned, Finite.mk.injEq, true_and] at h
  obtain ⟨rfl, rfl⟩ := h
  obtain rfl := hsign
  rfl

/-! ## Between two doubles -/

section Between

variable {x s t : Finite}

/-- With an even significand, a double is an even multiple of every power of two that is not above its
own. -/
theorem exists_even_multiple {e : Int} (heven : x.significand % 2 = 0) (h : e ≤ x.exponent) :
    ∃ k : Int, x.value = (2 * k : Int) * 2 ^ e := by
  obtain ⟨m, hm⟩ : ∃ m, x.significand = m * 2 :=
    ⟨_, (Nat.div_mul_cancel (Nat.dvd_of_mod_eq_zero heven)).symm⟩
  have hshift : x.exponent = ((x.exponent - e).toNat : Int) + e := by omega
  refine ⟨signed x.negative m * twoPow (x.exponent - e).toNat, ?_⟩
  calc x.value = signed x.negative (m * 2) * 2 ^ x.exponent := by rw [Finite.value_eq, hm]
    _ = signed x.negative (m * 2) * (twoPow (x.exponent - e).toNat * 2 ^ e) := by
      rw [cast_twoPow, ← zpow_natCast, ← zpow_add₀ (by norm_num), ← hshift]
    _ = (2 * (signed x.negative m * twoPow (x.exponent - e).toNat) : Int) * 2 ^ e := by
      rw [signed_mul]
      push_cast
      ring

/-- **A step away** from a double with an even significand there is a double on either side. -/
theorem exists_beside (heven : x.significand % 2 = 0) {δ : Int} (hδ : δ.natAbs = 1) :
    ∃ y : Finite, y.value = x.value + δ * 2 ^ x.exponent := by
  obtain ⟨hsig, hmin, hmax, -⟩ := x.canonical
  have hfull : twoPow 53 % 2 = 0 := by decide
  have habs : (signed x.negative x.significand).natAbs = x.significand := natAbs_signed _ _
  have hfits : (signed x.negative x.significand + δ).natAbs < twoPow 53 := by omega
  obtain ⟨y, hy⟩ := exists_finite_of_lt hfits hmin hmax
  refine ⟨y, ?_⟩
  rw [hy, x.value_eq]
  push_cast
  ring

/-- **Between two doubles with even significands** there is another one. -/
theorem exists_between (hs : s.significand % 2 = 0) (ht : t.significand % 2 = 0) (h : s.value < t.value) :
    ∃ y : Finite, s.value < y.value ∧ y.value < t.value := by
  have hapart : ∀ e : Int, e ≤ s.exponent → e ≤ t.exponent → s.value + 2 * 2 ^ e ≤ t.value := by
    intro e hes het
    obtain ⟨j, hj⟩ := exists_even_multiple hs hes
    obtain ⟨k, hk⟩ := exists_even_multiple ht het
    have hpow : (0 : ℚ) < 2 ^ e := zpow_pos (by norm_num) _
    rw [hj, hk, mul_lt_mul_iff_left₀ hpow] at h
    have hlt : 2 * j < 2 * k := by exact_mod_cast h
    have hle : ((2 * j + 2 : Int) : ℚ) ≤ (2 * k : Int) := by
      exact_mod_cast (by omega : 2 * j + 2 ≤ 2 * k)
    rw [hj, hk, ← add_mul]
    apply mul_le_mul_of_nonneg_right _ hpow.le
    exact_mod_cast hle
  rcases le_total s.exponent t.exponent with hle | hle
  · obtain ⟨y, hy⟩ := exists_beside hs (δ := 1) rfl
    have hpow : (0 : ℚ) < 2 ^ s.exponent := zpow_pos (by norm_num) _
    have hgap := hapart s.exponent le_rfl hle
    rw [Int.cast_one, one_mul] at hy
    exact ⟨y, by linarith, by linarith⟩
  · obtain ⟨y, hy⟩ := exists_beside ht (δ := -1) rfl
    have hpow : (0 : ℚ) < 2 ^ t.exponent := zpow_pos (by norm_num) _
    have hgap := hapart t.exponent hle le_rfl
    rw [Int.cast_neg, Int.cast_one, neg_one_mul] at hy
    exact ⟨y, by linarith, by linarith⟩

end Between

/-! ## The one nearest double -/

section Unique

variable {v w : ℚ} {s t x y : Finite}

/-- Of two nearest doubles the first is not below the second: at a tie both are even, and there is a nearer
one between them. -/
theorem RoundsTo.value_le (h : RoundsTo v s) (h' : RoundsTo v t) : t.value ≤ s.value := by
  by_contra hlt
  have htie : |v - t.value| = |v - s.value| := le_antisymm (h'.nearest s) (h.nearest t)
  have hmiddle : v - s.value = t.value - v := by
    rcases abs_eq_abs.mp htie with heq | heq <;> linarith
  have hs : s.significand % 2 = 0 := h.even t (by linarith) htie
  have ht : t.significand % 2 = 0 := h'.even s (by linarith) htie.symm
  obtain ⟨y, hsy, hyt⟩ := exists_between hs ht (by linarith)
  have hnearest := h.nearest y
  rw [abs_of_nonneg (by linarith : 0 ≤ v - s.value)] at hnearest
  have hnearer : |v - y.value| < v - s.value := abs_lt.mpr ⟨by linarith, by linarith⟩
  linarith

/-- **There is one nearest double**: it has one value. -/
theorem RoundsTo.unique (h : RoundsTo v s) (h' : RoundsTo v t) : s.value = t.value :=
  le_antisymm (h'.value_le h) (h.value_le h')

/-- **What lies between** a quantity and the double to which it is rounded goes there too. -/
theorem RoundsTo.between (h : RoundsTo v x) (hw : |v - w| + |w - x.value| = |v - x.value|) :
    RoundsTo w x := by
  have htriangle : ∀ y : Finite, |v - y.value| ≤ |v - w| + |w - y.value| :=
    fun y => abs_sub_le v w y.value
  constructor
  · intro y
    have hnearest := h.nearest y
    have hy := htriangle y
    linarith
  · intro y hne htie
    have hnearest := h.nearest y
    have hy := htriangle y
    exact h.even y hne (by linarith)

/-- From below. -/
theorem RoundsTo.between_le (h : RoundsTo v x) (hvw : v ≤ w) (hwx : w ≤ x.value) : RoundsTo w x := by
  apply h.between
  rw [abs_of_nonpos (by linarith), abs_of_nonpos (by linarith), abs_of_nonpos (by linarith)]
  ring

/-- From above. -/
theorem RoundsTo.between_ge (h : RoundsTo v x) (hwv : w ≤ v) (hxw : x.value ≤ w) : RoundsTo w x := by
  apply h.between
  rw [abs_of_nonneg (by linarith), abs_of_nonneg (by linarith), abs_of_nonneg (by linarith)]
  ring

/-- The value of a double goes to it. -/
theorem roundsTo_value (x : Finite) : RoundsTo x.value x := by
  constructor
  · intro y
    rw [sub_self, abs_zero]
    exact abs_nonneg _
  · intro y hne htie
    rw [sub_self, abs_zero, abs_eq_zero, sub_eq_zero] at htie
    exact absurd htie.symm hne

/-- What goes to a positive double is positive. -/
theorem RoundsTo.pos (h : RoundsTo v x) (hx : 0 < x.value) : 0 < v := by
  by_contra hneg
  obtain ⟨zero, hzero⟩ := exists_whole (n := 0) (by decide)
  rw [Int.cast_zero] at hzero
  have hle := h.le (y := zero) (by linarith)
  linarith

/-! ## Distances -/

/-- **Doubles are apart** by a part of `2 ^ 53` of their magnitude at least. -/
theorem relative_gap (hx : 0 < x.value) (hne : y.value ≠ x.value) :
    x.value ≤ 2 ^ 53 * |x.value - y.value| := by
  have hvalue : x.value = x.significand * 2 ^ x.exponent := (abs_of_pos hx).symm.trans x.abs_value
  have hpow : (0 : ℚ) < 2 ^ x.exponent := zpow_pos (by norm_num) _
  rcases lt_or_ge y.exponent x.exponent with hfine | hcoarse
  · -- the other double lies below the power of two at which the steps of this one begin
    obtain ⟨-, hmin, -, hnormal⟩ := x.canonical
    have hmin' : -1074 ≤ y.exponent := y.canonical.2.1
    have hfull : (2 : ℚ) ^ 52 ≤ x.significand := by
      rw [← cast_twoPow]
      exact Nat.cast_le.mpr (hnormal.resolve_right (by omega))
    have hstart : (2 : ℚ) ^ (52 + x.exponent) = 2 ^ 52 * 2 ^ x.exponent := by
      rw [zpow_add₀ (by norm_num)]
      norm_num
    have habove : (2 : ℚ) ^ (52 + x.exponent) ≤ x.value := by
      rw [hstart, hvalue]
      exact mul_le_mul_of_nonneg_right hfull hpow.le
    have hbelow : y.value < 2 ^ (52 + x.exponent) := by
      have hle : (2 : ℚ) ^ (53 + y.exponent) ≤ 2 ^ (52 + x.exponent) :=
        zpow_le_zpow_right₀ (by norm_num) (by omega)
      exact (le_abs_self _).trans_lt (y.abs_value_lt.trans_le hle)
    have hgap := Finite.le_below_power (by omega) hbelow
    have hstep : (2 : ℚ) ^ (52 + x.exponent) = 2 ^ 53 * 2 ^ (52 + x.exponent - 53) := by
      rw [← zpow_natCast, ← zpow_add₀ (by norm_num)]
      congr 1
      omega
    have hpos : (0 : ℚ) < 2 ^ (52 + x.exponent - 53) := zpow_pos (by norm_num) _
    rw [abs_of_pos (by linarith)]
    linarith
  · -- both are whole numbers of steps
    obtain ⟨k, hk⟩ := Finite.exists_multiple hcoarse
    have hdistance : |x.value - y.value| = |(x.significand : ℚ) - k| * 2 ^ x.exponent := by
      rw [hvalue, hk, ← sub_mul, abs_mul, abs_of_pos hpow]
    have hone : (1 : ℚ) ≤ |(x.significand : ℚ) - k| := by
      have hapart : (x.significand : Int) - k ≠ 0 := by
        intro hzero
        have hsame : (x.significand : ℚ) = k := by exact_mod_cast sub_eq_zero.mp hzero
        exact hne (by rw [hk, hvalue, hsame])
      exact_mod_cast Int.one_le_abs hapart
    have hsig : (x.significand : ℚ) < 2 ^ 53 := by
      rw [← cast_twoPow]
      exact Nat.cast_lt.mpr x.canonical.1
    rw [hdistance, hvalue, ← mul_assoc]
    apply mul_le_mul_of_nonneg_right _ hpow.le
    linarith

/-- **What is near in proportion** goes to the double. -/
theorem roundsTo_of_near (hx : 0 < x.value) (h : 2 ^ 53 * (2 * |v - x.value|) < x.value) :
    RoundsTo v x := by
  have hnearer : ∀ y : Finite, y.value ≠ x.value → |v - x.value| < |v - y.value| := by
    intro y hne
    have hgap := relative_gap hx hne
    have htriangle : |x.value - y.value| ≤ |x.value - v| + |v - y.value| := abs_sub_le _ _ _
    rw [abs_sub_comm x.value v] at htriangle
    linarith
  constructor
  · intro y
    by_cases hy : y.value = x.value
    · rw [hy]
    · exact (hnearer y hy).le
  · intro y hne htie
    exact absurd htie (hnearer y hne).ne'

end Unique

/-! ## Rounding quotients -/

section Quotient

variable {negative : Bool} {num den : Nat} {x s y : Finite}

/-- Rounding keeps the sign. -/
theorem negative_of_round (h : round negative num den = .finite s) : s.negative = negative := by
  have hparts : ∀ {m : Nat} {e : Int}, ofParts negative m e = .finite s → s.negative = negative := by
    intro m e hparts
    unfold ofParts at hparts
    split at hparts
    · obtain rfl := Binary64.finite.inj hparts
      rfl
    · cases hparts
  by_cases hn : num = 0
  · rw [round, if_pos hn] at h
    obtain rfl := Binary64.finite.inj h
    rfl
  · rw [round_of_pos negative (Nat.pos_of_ne_zero hn)] at h
    split at h <;> exact hparts h

/-- **The double that is found** for a positive quotient is the nearest one, with the sign. -/
theorem roundsTo_of_round (hn : 0 < num) (hd : 0 < den) (h : round negative num den = .finite s) :
    RoundsTo (num / den) s.unsigned := by
  obtain ⟨hvalue, hsig⟩ := value_of_round hn h
  refine roundsTo_of_steps hn hd ?_ hsig
  have hpow : (0 : ℚ) < 2 ^ stepExponent num den := zpow_pos (by norm_num) _
  rw [Finite.value_unsigned, hvalue, abs_mul, abs_of_pos hpow, ← Int.cast_abs, Int.abs_eq_natAbs,
    natAbs_signed, Int.cast_natCast]

/-- **The nearest double is found**, if the quotient does not overflow. -/
theorem round_of_roundsTo (hx : x.value ≠ 0) (hd : 0 < den) (h : RoundsTo (num / den) x.unsigned)
    (hfits : num < overflowBound * den) : round x.negative num den = .finite x := by
  have hpos := Finite.unsigned_pos hx
  have hn : 0 < num := by
    have hquotient := h.pos hpos
    rw [div_pos_iff_of_pos_right (Nat.cast_pos.mpr hd)] at hquotient
    exact Nat.cast_pos.mp hquotient
  obtain ⟨s, hs⟩ := (round_finite_iff x.negative hd).mpr hfits
  have hvalue : x.unsigned.value = s.unsigned.value := h.unique (roundsTo_of_round hn hd hs)
  have hsame : x.unsigned = s.unsigned := Finite.eq_of_value_eq hpos.ne' hvalue
  rw [hs, Finite.eq_of_unsigned_eq (negative_of_round hs).symm hsame]

end Quotient

end DesignMarkup.Binary64
