import DesignMarkup.Number.Binary64
import Mathlib.Algebra.Order.Field.Power
import Mathlib.Data.Rat.Cast.Order
import Mathlib.Tactic.Linarith
import Mathlib.Tactic.Positivity
import Mathlib.Tactic.Ring

/-!
# `Proofs.Number.Rounding` — which quotients round to finite doubles

Rounding scales a quotient by a power of two so that its whole part has 53 bits, rounds it to a whole
number, and scales back. The exponent is found from the lengths of numerator and denominator; that it is
the right one is a comparison of a quotient with powers of two, and such comparisons are made between
rational numbers here. All that is then left of the algorithm is one bound: a quotient has a finite double
exactly if it is below `overflowBound`, which lies halfway between the greatest double and the next power
of two.

## Contents

* `twoPow_toNat`, `mul_le_scaled`: powers of two and scaled quotients;
* `floorLog2_le`, `lt_floorLog2`: **the exponent of a quotient**;
* `roundHalfEven_lt_iff`: the nearest whole number against a bound;
* `overflowBound`, `round_finite_iff`: **the quotients with finite doubles**;
* `Finite.magnitude_le`, `add_half_finite`: doubles stay finite if one half is added.
-/

namespace DesignMarkup.Binary64

/-! ## Powers of two -/

theorem cast_twoPow (n : Nat) : (twoPow n : ℚ) = 2 ^ n :=
  Nat.cast_pow 2 n

theorem twoPow_le_twoPow {m n : Nat} (h : m ≤ n) : twoPow m ≤ twoPow n :=
  Nat.pow_le_pow_right (by decide) h

/-- A power of two with any exponent, as a quotient of whole powers. -/
theorem twoPow_toNat (e : Int) : (twoPow e.toNat : ℚ) = 2 ^ e * twoPow (-e).toNat := by
  rw [cast_twoPow, cast_twoPow, ← zpow_natCast, ← zpow_natCast, ← zpow_add₀ (by norm_num)]
  congr 1
  omega

/-- A multiple of a power of two against a quotient, in whole numbers and in rational ones. -/
theorem mul_le_scaled (c num den : Nat) (e : Int) :
    c * (den * twoPow e.toNat) ≤ num * twoPow (-e).toNat ↔ (c : ℚ) * 2 ^ e * den ≤ num := by
  have ht : (0 : ℚ) < twoPow (-e).toNat := Nat.cast_pos.mpr (twoPow_pos _)
  have hshift : (c : ℚ) * (den * (2 ^ e * twoPow (-e).toNat)) =
      c * 2 ^ e * den * twoPow (-e).toNat := by ring
  rw [← Nat.cast_le (α := ℚ)]
  push_cast
  rw [twoPow_toNat e, hshift, mul_le_mul_iff_left₀ ht]

/-! ## The exponent of a quotient -/

section Exponent

variable {num den : Nat}

/-- The lengths of numerator and denominator bound the exponent from above. -/
theorem lt_lengths (hd : 0 < den) :
    (num : ℚ) < 2 ^ ((num.log2 : Int) - den.log2 + 1) * den := by
  have hnum : (num : ℚ) < 2 ^ ((num.log2 : Int) + 1) := by
    exact_mod_cast Nat.lt_log2_self
  have hden : (2 : ℚ) ^ (den.log2 : Int) ≤ den := by
    exact_mod_cast Nat.log2_self_le (Nat.pos_iff_ne_zero.mp hd)
  calc (num : ℚ) < 2 ^ ((num.log2 : Int) + 1) := hnum
    _ = 2 ^ ((num.log2 : Int) - den.log2 + 1) * 2 ^ (den.log2 : Int) := by
      rw [← zpow_add₀ (by norm_num)]
      congr 1
      omega
    _ ≤ 2 ^ ((num.log2 : Int) - den.log2 + 1) * den :=
      mul_le_mul_of_nonneg_left hden (by positivity)

/-- They miss it by one at most. -/
theorem lengths_le (hn : 0 < num) :
    (2 : ℚ) ^ ((num.log2 : Int) - den.log2 - 1) * den ≤ num := by
  have hnum : (2 : ℚ) ^ (num.log2 : Int) ≤ num := by
    exact_mod_cast Nat.log2_self_le (Nat.pos_iff_ne_zero.mp hn)
  have hden : (den : ℚ) ≤ 2 ^ ((den.log2 : Int) + 1) := by
    exact_mod_cast Nat.lt_log2_self.le
  calc (2 : ℚ) ^ ((num.log2 : Int) - den.log2 - 1) * den
      ≤ 2 ^ ((num.log2 : Int) - den.log2 - 1) * 2 ^ ((den.log2 : Int) + 1) :=
        mul_le_mul_of_nonneg_left hden (by positivity)
    _ = 2 ^ (num.log2 : Int) := by
      rw [← zpow_add₀ (by norm_num)]
      congr 1
      omega
    _ ≤ num := hnum

/-- The test that `floorLog2` makes, as a comparison of quotients. -/
theorem floorLog2_test (num den : Nat) (e : Int) :
    den * twoPow e.toNat ≤ num * twoPow (-e).toNat ↔ (2 : ℚ) ^ e * den ≤ num := by
  have h := mul_le_scaled 1 num den e
  rw [Nat.one_mul, Nat.cast_one, one_mul] at h
  exact h

/-- **The power of two is not above the quotient.** -/
theorem floorLog2_le (hn : 0 < num) : (2 : ℚ) ^ floorLog2 num den * den ≤ num := by
  unfold floorLog2
  dsimp only
  split
  · next h => exact (floorLog2_test _ _ _).mp h
  · exact lengths_le hn

/-- **The next power of two is.** -/
theorem lt_floorLog2 (hd : 0 < den) : (num : ℚ) < 2 ^ (floorLog2 num den + 1) * den := by
  unfold floorLog2
  dsimp only
  split
  · exact lt_lengths hd
  · next h =>
    rw [Int.sub_add_cancel]
    exact not_le.mp fun hle => h ((floorLog2_test _ _ _).mpr hle)

end Exponent

/-! ## The nearest whole number -/

section Nearest

variable {a b m : Nat}

theorem le_roundHalfEven (hb : 0 < b) (h : m * b ≤ a) : m ≤ roundHalfEven a b := by
  have hq : m ≤ a / b := (Nat.le_div_iff_mul_le hb).mpr h
  unfold roundHalfEven
  dsimp only
  split
  · exact hq
  · split
    · omega
    · split <;> omega

theorem roundHalfEven_le (hb : 0 < b) (h : a < m * b) : roundHalfEven a b ≤ m := by
  have hq : a / b < m := (Nat.div_lt_iff_lt_mul hb).mpr h
  unfold roundHalfEven
  dsimp only
  split
  · omega
  · split
    · omega
    · split <;> omega

/-- **What rounds below an even number** is below the half before it: the half itself goes to the even
number. -/
theorem roundHalfEven_lt_iff (hb : 0 < b) (hm : m % 2 = 0) :
    roundHalfEven a b < m ↔ 2 * a + b < 2 * (m * b) := by
  have hdiv : b * (a / b) + a % b = a := Nat.div_add_mod a b
  have hmod : a % b < b := Nat.mod_lt a hb
  rw [Nat.mul_comm b] at hdiv
  rcases Nat.lt_trichotomy (a / b + 1) m with h | h | h
  · -- two whole steps below the bound, so below whichever way it goes
    have hstep : (a / b + 2) * b ≤ m * b := Nat.mul_le_mul_right b h
    rw [Nat.add_mul] at hstep
    refine iff_of_true ?_ (by omega)
    exact Nat.lt_of_le_of_lt (roundHalfEven_le hb (m := a / b + 1) (by rw [Nat.add_mul]; omega)) h
  · -- in the last step, where the half decides
    have hstep : m * b = a / b * b + b := by rw [← h, Nat.add_mul, Nat.one_mul]
    unfold roundHalfEven
    dsimp only
    split
    · omega
    · split
      · omega
      · split <;> omega
  · -- the bound itself is reached already before rounding
    have hle : m * b ≤ a / b * b := Nat.mul_le_mul_right b (by omega)
    refine iff_of_false ?_ (by omega)
    exact Nat.not_lt.mpr (le_roundHalfEven hb (by omega))

end Nearest

/-! ## Finite doubles -/

/-- A double that is a number. -/
def IsFinite (x : Binary64) : Prop :=
  ∃ y, x = .finite y

theorem isFinite_finite (x : Finite) : IsFinite (.finite x) :=
  ⟨x, rfl⟩

theorem not_isFinite_infinity (negative : Bool) : ¬IsFinite (.infinity negative) := by
  rintro ⟨y, hy⟩
  cases hy

theorem not_isFinite_nan : ¬IsFinite .nan := by
  rintro ⟨y, hy⟩
  cases hy

theorem isFinite_ofParts_iff {negative : Bool} {significand : Nat} {exponent : Int} :
    IsFinite (ofParts negative significand exponent) ↔ Canonical significand exponent := by
  unfold ofParts
  split
  · next h => exact iff_of_true (isFinite_finite _) h
  · next h => exact iff_of_false (not_isFinite_infinity _) h

/-- **The least magnitude that rounds to an infinity**: half a step above the greatest double, which is
`(2 ^ 53 - 1) * 2 ^ 971`. -/
def overflowBound : Nat :=
  (twoPow 54 - 1) * twoPow 970

theorem twoPow_succ (n : Nat) : twoPow (n + 1) = 2 * twoPow n := by
  rw [twoPow, Nat.pow_eq, Nat.pow_succ, Nat.mul_comm]
  rfl

/-- The powers of two on either side of the bound. -/
theorem overflowBound_between : twoPow 1023 ≤ overflowBound ∧ overflowBound < twoPow 1024 := by
  decide +kernel

/-- Between equal powers, in the last step below the bound, the significand decides. -/
theorem roundHalfEven_lt_overflow {num den : Nat} (hd : 0 < den) :
    roundHalfEven (num * twoPow (-971 : Int).toNat) (den * twoPow (971 : Int).toNat) < twoPow 53 ↔
      num < overflowBound * den := by
  have hb : 0 < den * twoPow (971 : Int).toNat := Nat.mul_pos hd (twoPow_pos _)
  have hzero : twoPow (-971 : Int).toNat = 1 := rfl
  have hstep : twoPow (971 : Int).toNat = 2 * twoPow 970 := twoPow_succ 970
  have hsig : twoPow 54 - 1 = 2 * twoPow 53 - 1 := by rw [twoPow_succ]
  have hpos : 0 < twoPow 53 := twoPow_pos 53
  rw [roundHalfEven_lt_iff hb (by decide), hzero, hstep, Nat.mul_one, overflowBound, hsig,
    Nat.sub_mul, Nat.sub_mul, Nat.one_mul, Nat.mul_comm (twoPow 970) den]
  have hassoc : twoPow 53 * (den * (2 * twoPow 970)) = 2 * twoPow 53 * twoPow 970 * den := by ring
  have hcomm : den * (2 * twoPow 970) = 2 * (den * twoPow 970) := by ring
  have hle : den * twoPow 970 ≤ 2 * twoPow 53 * twoPow 970 * den := by
    calc den * twoPow 970 = 1 * (twoPow 970 * den) := by ring
      _ ≤ 2 * twoPow 53 * (twoPow 970 * den) := Nat.mul_le_mul_right _ (by omega)
      _ = 2 * twoPow 53 * twoPow 970 * den := by ring
  rw [hassoc, hcomm]
  omega

/-- The exponent of the step between the doubles around a quotient. -/
def stepExponent (num den : Nat) : Int :=
  max (-1074) (floorLog2 num den - 52)

/-- The whole number of steps nearest to a quotient. -/
def stepCount (num den : Nat) : Nat :=
  roundHalfEven (num * twoPow (-stepExponent num den).toNat) (den * twoPow (stepExponent num den).toNat)

theorem round_of_pos (negative : Bool) {num den : Nat} (hn : 0 < num) :
    round negative num den =
      if stepCount num den = twoPow 53 then ofParts negative (twoPow 52) (stepExponent num den + 1)
      else ofParts negative (stepCount num den) (stepExponent num den) := by
  rw [round, if_neg (Nat.pos_iff_ne_zero.mp hn)]
  rfl

section Steps

variable {num den : Nat}

/-- A quotient is counted in 53 bits, or rounds to the next power of two. -/
theorem stepCount_le (hd : 0 < den) : stepCount num den ≤ twoPow 53 := by
  have hlog : (num : ℚ) < 2 ^ (floorLog2 num den + 1) * den := lt_floorLog2 hd
  have hexp : floorLog2 num den + 1 ≤ 53 + stepExponent num den := by
    unfold stepExponent
    omega
  refine roundHalfEven_le (Nat.mul_pos hd (twoPow_pos _)) (Nat.lt_of_not_le ?_)
  rw [mul_le_scaled]
  refine not_le.mpr (hlog.trans_le ?_)
  refine mul_le_mul_of_nonneg_right ?_ (Nat.cast_nonneg den)
  calc (2 : ℚ) ^ (floorLog2 num den + 1) ≤ 2 ^ (53 + stepExponent num den) :=
        zpow_le_zpow_right₀ (by norm_num) hexp
    _ = (twoPow 53 : ℚ) * 2 ^ stepExponent num den := by
      rw [zpow_add₀ (by norm_num), cast_twoPow]
      norm_num

/-- Above the least exponent all 53 bits are used. -/
theorem le_stepCount (hn : 0 < num) (hd : 0 < den) (he : stepExponent num den ≠ -1074) :
    twoPow 52 ≤ stepCount num den := by
  have hexp : floorLog2 num den = 52 + stepExponent num den := by
    unfold stepExponent at he ⊢
    omega
  refine le_roundHalfEven (Nat.mul_pos hd (twoPow_pos _)) ((mul_le_scaled _ _ _ _).mpr ?_)
  calc (twoPow 52 : ℚ) * 2 ^ stepExponent num den * den = 2 ^ floorLog2 num den * den := by
        rw [hexp, zpow_add₀ (by norm_num), cast_twoPow]
        norm_num
    _ ≤ num := floorLog2_le hn

/-- With a smaller step than the greatest, a quotient is below the bound. -/
theorem lt_overflowBound (hd : 0 < den) (he : stepExponent num den ≤ 970) :
    num < overflowBound * den := by
  have hlog : (num : ℚ) < 2 ^ (floorLog2 num den + 1) * den := lt_floorLog2 hd
  have hexp : floorLog2 num den + 1 ≤ 1023 := by
    unfold stepExponent at he
    omega
  have hpow : (num : ℚ) < (twoPow 1023 * den : Nat) := by
    rw [Nat.cast_mul, cast_twoPow]
    refine hlog.trans_le (mul_le_mul_of_nonneg_right ?_ (Nat.cast_nonneg den))
    exact_mod_cast zpow_le_zpow_right₀ (by norm_num : (1 : ℚ) ≤ 2) hexp
  exact Nat.lt_of_lt_of_le (Nat.cast_lt.mp hpow) (Nat.mul_le_mul_right den overflowBound_between.1)

/-- With a greater one, it is not. -/
theorem overflowBound_le (hn : 0 < num) (he : 972 ≤ stepExponent num den) :
    overflowBound * den ≤ num := by
  have hlog : (2 : ℚ) ^ floorLog2 num den * den ≤ num := floorLog2_le hn
  have hexp : 1024 ≤ floorLog2 num den := by
    unfold stepExponent at he
    omega
  have hpow : ((twoPow 1024 * den : Nat) : ℚ) ≤ num := by
    rw [Nat.cast_mul, cast_twoPow]
    refine le_trans (mul_le_mul_of_nonneg_right ?_ (Nat.cast_nonneg den)) hlog
    exact_mod_cast zpow_le_zpow_right₀ (by norm_num : (1 : ℚ) ≤ 2) hexp
  exact Nat.le_trans (Nat.mul_le_mul_right den overflowBound_between.2.le) (Nat.cast_le.mp hpow)

/-- What a count below the next power of two is as a double. -/
theorem canonical_stepCount (hn : 0 < num) (hd : 0 < den) (hlt : stepCount num den < twoPow 53) :
    Canonical (stepCount num den) (stepExponent num den) ↔ stepExponent num den ≤ 971 := by
  have hmin : -1074 ≤ stepExponent num den := Int.le_max_left _ _
  refine ⟨fun h => h.2.2.1, fun h => ⟨hlt, hmin, h, ?_⟩⟩
  by_cases he : stepExponent num den = -1074
  · exact Or.inr he
  · exact Or.inl (le_stepCount hn hd he)

end Steps

/-- **The quotients with finite doubles** are those below the bound. -/
theorem round_finite_iff (negative : Bool) {num den : Nat} (hd : 0 < den) :
    IsFinite (round negative num den) ↔ num < overflowBound * den := by
  by_cases hzero : num = 0
  · rw [round, if_pos hzero, hzero]
    refine iff_of_true (isFinite_finite _) (Nat.mul_pos ?_ hd)
    exact Nat.lt_of_lt_of_le (twoPow_pos 1023) overflowBound_between.1
  have hn : 0 < num := Nat.pos_of_ne_zero hzero
  have hmin : -1074 ≤ stepExponent num den := Int.le_max_left _ _
  rw [round_of_pos negative hn]
  rcases Int.lt_trichotomy (stepExponent num den) 971 with he | he | he
  · -- a smaller step: even the next power of two is a double
    refine iff_of_true ?_ (lt_overflowBound hd (by omega))
    split
    · rw [isFinite_ofParts_iff]
      exact ⟨by decide, by omega, by omega, Or.inl (Nat.le_refl _)⟩
    · next hne =>
      rw [isFinite_ofParts_iff, canonical_stepCount hn hd (Nat.lt_of_le_of_ne (stepCount_le hd) hne)]
      omega
  · -- the greatest step: the count decides
    have hcount : stepCount num den < twoPow 53 ↔ num < overflowBound * den := by
      rw [← roundHalfEven_lt_overflow hd, ← he, stepCount]
    rw [← hcount]
    split
    · next heq =>
      rw [isFinite_ofParts_iff, heq, he]
      exact iff_of_false (by decide) (Nat.lt_irrefl _)
    · next hne =>
      have hlt := Nat.lt_of_le_of_ne (stepCount_le hd) hne
      rw [isFinite_ofParts_iff, canonical_stepCount hn hd hlt]
      exact iff_of_true (by omega) hlt
  · -- a step that no double has
    refine iff_of_false ?_ (Nat.not_lt.mpr (overflowBound_le hn (by omega)))
    split
    · rw [isFinite_ofParts_iff]
      intro h
      have hmax := h.2.2.1
      omega
    · next hne =>
      rw [isFinite_ofParts_iff, canonical_stepCount hn hd (Nat.lt_of_le_of_ne (stepCount_le hd) hne)]
      omega

/-! ## Sums with one half -/

/-- The greatest double. -/
def greatest : Nat :=
  (twoPow 53 - 1) * twoPow 971

theorem greatest_lt : 2 * greatest + 1 < 2 * overflowBound := by
  decide +kernel

/-- No double is above the greatest one. -/
theorem Finite.magnitude_le (x : Finite) : x.magnitude ≤ greatest * x.den := by
  obtain ⟨hsig, -, hexp, -⟩ := x.canonical
  have hpow : twoPow x.exponent.toNat ≤ twoPow 971 := twoPow_le_twoPow (by omega)
  calc x.magnitude ≤ greatest := Nat.mul_le_mul (Nat.le_pred_of_lt hsig) hpow
    _ ≤ greatest * x.den := Nat.le_mul_of_pos_right greatest x.den_pos

theorem natAbs_num (x : Finite) : x.num.natAbs = x.magnitude := by
  unfold Finite.num signed
  split
  · exact Int.natAbs_neg _
  · rfl

/-- One half is a double whose numerator is half of its denominator. -/
theorem half_eq : ∃ y : Finite, half = .finite y ∧ 2 * y.num = y.den :=
  ⟨⟨false, twoPow 52, -53, by decide⟩, by decide +kernel, by decide +kernel⟩

/-- **Adding one half keeps doubles finite**: one half is less than half a step at the greatest double. -/
theorem add_half_finite (x : Finite) : IsFinite ((Binary64.finite x).add half) := by
  obtain ⟨y, hy, hhalf⟩ := half_eq
  rw [hy, add]
  split
  · exact isFinite_finite _
  · rw [roundInt, round_finite_iff _ (Nat.mul_pos x.den_pos y.den_pos)]
    have hy' : 2 * y.num.natAbs = y.den := by omega
    have habs : (x.num * y.den + y.num * x.den).natAbs ≤
        x.magnitude * y.den + y.num.natAbs * x.den := by
      refine (Int.natAbs_add_le _ _).trans ?_
      rw [Int.natAbs_mul, Int.natAbs_mul, Int.natAbs_natCast, Int.natAbs_natCast, natAbs_num]
    have htwice : 2 * (x.num * y.den + y.num * x.den).natAbs < 2 * (overflowBound * (x.den * y.den)) := by
      calc 2 * (x.num * y.den + y.num * x.den).natAbs
          ≤ 2 * (x.magnitude * y.den + y.num.natAbs * x.den) := Nat.mul_le_mul_left 2 habs
        _ = 2 * (x.magnitude * y.den) + 2 * y.num.natAbs * x.den := by ring
        _ = 2 * (x.magnitude * y.den) + y.den * x.den := by rw [hy']
        _ ≤ 2 * (greatest * x.den * y.den) + y.den * x.den := by
          have hle := Nat.mul_le_mul_right y.den x.magnitude_le
          omega
        _ = (2 * greatest + 1) * (x.den * y.den) := by ring
        _ < 2 * overflowBound * (x.den * y.den) :=
          Nat.mul_lt_mul_of_pos_right greatest_lt (Nat.mul_pos x.den_pos y.den_pos)
        _ = 2 * (overflowBound * (x.den * y.den)) := by ring
    omega

end DesignMarkup.Binary64
