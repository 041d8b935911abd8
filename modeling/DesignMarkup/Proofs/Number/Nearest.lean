import DesignMarkup.Proofs.Number.Exact
import Mathlib.Tactic.FieldSimp

/-!
# `Proofs.Number.Nearest` — rounding finds the nearest double

A finite double is a whole multiple of a power of two, and any whole number of up to 53 bits times a power
of two in range is the value of one. Rounding counts a quotient in steps, and the nearest whole number of
steps is a double. That no other double is nearer is one comparison: a double with the same or a greater
step is a whole number of steps itself, and one with a smaller step lies below the power of two at which
the steps begin, so the quotient is at least as near to that power.

## Contents

* `Finite.value`: the exact value as a rational number;
* `exists_finite_of_lt`, `exists_finite`: **the values that doubles have**;
* `RoundsTo`: a nearest double, with an even significand if another one is as near;
* `RoundsTo.exact`, `RoundsTo.ge`, `RoundsTo.le`: rounding and the order of values;
* `roundHalfEven_near`, `stepCount_near`: the nearest whole number, and the nearest number of steps;
* `stepCount_nearest`: **no double is nearer** than the number of steps;
* `roundsTo_of_roundInt`, `add_roundsTo`: **rounding and sums**.
-/

namespace DesignMarkup.Binary64

/-! ## Values -/

/-- The exact value of a finite double. -/
def Finite.value (x : Finite) : ℚ :=
  x.num / x.den

theorem natAbs_signed (negative : Bool) (n : Nat) : (signed negative n).natAbs = n := by
  cases negative
  · exact Int.natAbs_natCast n
  · exact (Int.natAbs_neg _).trans (Int.natAbs_natCast n)

theorem signed_mul (negative : Bool) (m n : Nat) :
    signed negative (m * n) = signed negative m * n := by
  cases negative
  · exact Int.natCast_mul m n
  · exact (congrArg Neg.neg (Int.natCast_mul m n)).trans (Int.neg_mul _ _).symm

theorem Finite.cast_den_pos (x : Finite) : (0 : ℚ) < x.den :=
  Nat.cast_pos.mpr x.den_pos

/-- The value is the significand with its sign, times the power of two. -/
theorem Finite.value_eq (x : Finite) :
    x.value = (signed x.negative x.significand : ℚ) * 2 ^ x.exponent := by
  rw [value, div_eq_iff x.cast_den_pos.ne', num, magnitude, signed_mul]
  push_cast
  rw [twoPow_toNat, mul_assoc]
  rfl

/-- With the sign turned around, so is the value. -/
theorem Finite.value_neg (x : Finite) :
    Finite.value { x with negative := !x.negative } = -x.value := by
  rw [value_eq, value_eq]
  cases x.negative <;> simp [signed]

/-- The magnitude of the value is that of the parts. -/
theorem Finite.abs_value (x : Finite) : |x.value| = x.significand * 2 ^ x.exponent := by
  have hpow : (0 : ℚ) < 2 ^ x.exponent := zpow_pos (by norm_num) _
  rw [value_eq, abs_mul, abs_of_pos hpow, ← Int.cast_abs, Int.abs_eq_natAbs, natAbs_signed,
    Int.cast_natCast]

/-- The magnitude of a double is below 53 bits of its power of two. -/
theorem Finite.abs_value_lt (x : Finite) : |x.value| < 2 ^ (53 + x.exponent) := by
  have hpow : (0 : ℚ) < 2 ^ x.exponent := zpow_pos (by norm_num) _
  have hsig : (x.significand : ℚ) < twoPow 53 := Nat.cast_lt.mpr x.canonical.1
  rw [cast_twoPow] at hsig
  rw [abs_value, zpow_add₀ (by norm_num)]
  exact_mod_cast mul_lt_mul_of_pos_right hsig hpow

/-- A double is a whole multiple of every power of two that is not above its own. -/
theorem Finite.exists_multiple {x : Finite} {e : Int} (h : e ≤ x.exponent) :
    ∃ k : Int, x.value = k * 2 ^ e := by
  refine ⟨signed x.negative x.significand * twoPow (x.exponent - e).toNat, ?_⟩
  have hshift : ((x.exponent - e).toNat : Int) + e = x.exponent := by omega
  rw [value_eq, Int.cast_mul, Int.cast_natCast, cast_twoPow, mul_assoc, ← zpow_natCast,
    ← zpow_add₀ (by norm_num), hshift]

/-- A double is determined by its value, unless that is zero. -/
theorem Finite.eq_of_value_eq {x y : Finite} (hx : x.value ≠ 0) (h : x.value = y.value) : x = y := by
  have hnum : x.num ≠ 0 := by
    intro hzero
    rw [value, hzero, Int.cast_zero, zero_div] at hx
    exact hx rfl
  rw [value, value, div_eq_div_iff x.cast_den_pos.ne' y.cast_den_pos.ne'] at h
  exact eq_of_value hnum (by exact_mod_cast h)

/-! ## The values that doubles have -/

/-- A significand that fits can be moved up until it is in canonical form, or down at the least exponent. -/
theorem exists_canonical (n : Nat) {m : Nat} {e : Int} (hm : m < twoPow 53) (he : e = -1074 + n)
    (hmax : e ≤ 971) :
    ∃ significand exponent, Canonical significand exponent ∧
      (significand : ℚ) * 2 ^ exponent = m * 2 ^ e := by
  induction n generalizing m e with
  | zero => exact ⟨m, e, ⟨hm, by omega, hmax, .inr (by omega)⟩, rfl⟩
  | succ n ih =>
    by_cases hbig : twoPow 52 ≤ m
    · exact ⟨m, e, ⟨hm, by omega, hmax, .inl hbig⟩, rfl⟩
    · have hdouble : 2 * m < twoPow 53 := by
        have htwice : twoPow 53 = 2 * twoPow 52 := twoPow_succ 52
        omega
      obtain ⟨s, f, hcanonical, hvalue⟩ := ih (m := 2 * m) (e := e - 1) hdouble (by omega) (by omega)
      refine ⟨s, f, hcanonical, hvalue.trans ?_⟩
      rw [zpow_sub_one₀ (by norm_num)]
      push_cast
      ring

/-- A magnitude that has a canonical form is the value of a double with either sign. -/
theorem exists_of_canonical {k e f : Int} {s : Nat} (hcanonical : Canonical s f)
    (hvalue : (s : ℚ) * 2 ^ f = k.natAbs * 2 ^ e) : ∃ x : Finite, x.value = k * 2 ^ e := by
  rw [Nat.cast_natAbs] at hvalue
  refine ⟨⟨decide (k < 0), s, f, hcanonical⟩, ?_⟩
  rw [Finite.value_eq]
  rcases lt_or_ge k 0 with hneg | hpos
  · rw [abs_of_neg hneg, Int.cast_neg, neg_mul] at hvalue
    rw [decide_eq_true hneg, signed, if_pos rfl, Int.cast_neg, Int.cast_natCast, neg_mul, hvalue, neg_neg]
  · rw [abs_of_nonneg hpos] at hvalue
    rw [decide_eq_false (not_lt.mpr hpos), signed, if_neg Bool.false_ne_true, Int.cast_natCast, hvalue]

/-- **Every whole number of 53 bits**, times a power of two in range, is the value of a double. -/
theorem exists_finite_of_lt {k e : Int} (hk : k.natAbs < twoPow 53) (hmin : -1074 ≤ e) (hmax : e ≤ 971) :
    ∃ x : Finite, x.value = k * 2 ^ e := by
  obtain ⟨s, f, hcanonical, hvalue⟩ := exists_canonical (e + 1074).toNat hk (by omega) hmax
  exact exists_of_canonical hcanonical hvalue

/-- The power of two after them is one too, below the greatest exponent. -/
theorem exists_finite {k e : Int} (hk : k.natAbs ≤ twoPow 53) (hmin : -1074 ≤ e) (hmax : e ≤ 970) :
    ∃ x : Finite, x.value = k * 2 ^ e := by
  rcases Nat.lt_or_eq_of_le hk with hlt | heq
  · exact exists_finite_of_lt hlt hmin (by omega)
  · have hcanonical : Canonical (twoPow 52) (e + 1) :=
      ⟨by decide, by omega, by omega, .inl (Nat.le_refl _)⟩
    have htwice : twoPow 53 = 2 * twoPow 52 := twoPow_succ 52
    apply exists_of_canonical hcanonical
    rw [heq, htwice, zpow_add_one₀ (by norm_num)]
    push_cast
    ring

/-! ## The nearest whole number -/

/-- What is left of a quotient when it is rounded to a whole number: at most half of the denominator on
either side, and the whole number is even if it is half of it. -/
theorem roundHalfEven_rest {a b : Nat} (hb : 0 < b) :
    ∃ rest : Int, (a : Int) = roundHalfEven a b * b + rest ∧ 2 * rest.natAbs ≤ b ∧
      (2 * rest.natAbs = b → roundHalfEven a b % 2 = 0) := by
  have hdiv : (a : Int) = (a / b : Nat) * b + (a % b : Nat) := by
    rw [Int.mul_comm]
    exact_mod_cast (Nat.div_add_mod a b).symm
  have hup : (a : Int) = (a / b + 1 : Nat) * b + ((a % b : Nat) - b) := by
    rw [hdiv]
    push_cast
    ring
  have hmod : a % b < b := Nat.mod_lt a hb
  unfold roundHalfEven
  dsimp only
  split
  · exact ⟨_, hdiv, by omega, by omega⟩
  · split
    · exact ⟨_, hup, by omega, by omega⟩
    · split
      · next heven => exact ⟨_, hdiv, by omega, fun _ => heven⟩
      · next hodd => exact ⟨_, hup, by omega, fun _ => by omega⟩

/-- **The nearest whole number** is at most a half away, and it is even if it is a half away. -/
theorem roundHalfEven_near {a b : Nat} (hb : 0 < b) :
    |(a : ℚ) / b - roundHalfEven a b| ≤ 1 / 2 ∧
      (|(a : ℚ) / b - roundHalfEven a b| = 1 / 2 → roundHalfEven a b % 2 = 0) := by
  obtain ⟨rest, hrest, hle, heven⟩ := roundHalfEven_rest (a := a) hb
  have hb' : (0 : ℚ) < b := Nat.cast_pos.mpr hb
  have hcast : (a : ℚ) = roundHalfEven a b * b + rest := by exact_mod_cast hrest
  have hdistance : |(a : ℚ) / b - roundHalfEven a b| = rest.natAbs / b := by
    rw [Nat.cast_natAbs, Int.cast_abs, ← abs_of_pos hb', ← abs_div, abs_of_pos hb', hcast]
    congr 1
    field_simp
    ring
  rw [hdistance, div_le_div_iff₀ hb' (by norm_num), div_eq_div_iff hb'.ne' (by norm_num)]
  constructor
  · rw [mul_comm, one_mul]
    exact_mod_cast hle
  · intro hhalf
    rw [mul_comm, one_mul] at hhalf
    exact heven (by exact_mod_cast hhalf)

/-- A whole number at most a half away is a nearest one, and another one is as near only if that is half
a step away too. -/
theorem nearest_of_near {t : ℚ} {r : Int} (h : |t - r| ≤ 1 / 2) (k : Int) :
    |t - r| ≤ |t - k| ∧ (k ≠ r → |t - k| = |t - r| → |t - r| = 1 / 2) := by
  by_cases hk : k = r
  · rw [hk]
    exact ⟨le_rfl, fun hne => absurd rfl hne⟩
  have hapart : (1 : ℚ) ≤ |(k : ℚ) - r| := by
    exact_mod_cast Int.one_le_abs (sub_ne_zero.mpr hk)
  have htriangle : |(k : ℚ) - r| ≤ |t - k| + |t - r| := by
    calc |(k : ℚ) - r| = |(t - r) - (t - k)| := by ring_nf
      _ ≤ |t - r| + |t - k| := abs_sub _ _
      _ = |t - k| + |t - r| := add_comm _ _
  exact ⟨by linarith, fun _ heq => by linarith⟩

/-! ## The nearest double -/

/-- **A double to which a quantity is rounded**: no double is nearer, and if another one is as near, the
significand is even. -/
structure RoundsTo (v : ℚ) (s : Finite) : Prop where
  nearest : ∀ y : Finite, |v - s.value| ≤ |v - y.value|
  even : ∀ y : Finite, y.value ≠ s.value → |v - y.value| = |v - s.value| → s.significand % 2 = 0

section Nearest

variable {v : ℚ} {s y : Finite}

/-- The value of a double is rounded to itself. -/
theorem RoundsTo.exact (h : RoundsTo v s) (hy : y.value = v) : s.value = v := by
  have hnearest := h.nearest y
  rw [hy, sub_self, abs_zero] at hnearest
  exact (sub_eq_zero.mp (abs_nonpos_iff.mp hnearest)).symm

/-- Rounding does not cross a double downwards. -/
theorem RoundsTo.ge (h : RoundsTo v s) (hy : y.value ≤ v) : y.value ≤ s.value := by
  by_contra hlt
  have hnearest := h.nearest y
  rw [abs_of_nonneg (by linarith), abs_of_nonneg (by linarith)] at hnearest
  linarith

/-- Nor upwards. -/
theorem RoundsTo.le (h : RoundsTo v s) (hy : v ≤ y.value) : s.value ≤ y.value := by
  by_contra hlt
  have hnearest := h.nearest y
  rw [abs_of_nonpos (by linarith), abs_of_nonpos (by linarith)] at hnearest
  linarith

end Nearest

section Steps

variable {num den : Nat}

/-- A quotient is at most half a step from the number of steps it is rounded to. -/
theorem stepCount_near (hd : 0 < den) :
    |(num : ℚ) / den / 2 ^ stepExponent num den - stepCount num den| ≤ 1 / 2 ∧
      (|(num : ℚ) / den / 2 ^ stepExponent num den - stepCount num den| = 1 / 2 →
        stepCount num den % 2 = 0) := by
  have hden : (den : ℚ) ≠ 0 := Nat.cast_ne_zero.mpr hd.ne'
  have hpow : (2 : ℚ) ^ stepExponent num den ≠ 0 := (zpow_pos (by norm_num) _).ne'
  have hscale : (twoPow (-stepExponent num den).toNat : ℚ) ≠ 0 :=
    Nat.cast_ne_zero.mpr (twoPow_pos _).ne'
  have hquotient : (num : ℚ) / den / 2 ^ stepExponent num den =
      ((num * twoPow (-stepExponent num den).toNat : Nat) : ℚ) /
        (den * twoPow (stepExponent num den).toNat : Nat) := by
    rw [Nat.cast_mul, Nat.cast_mul, twoPow_toNat (stepExponent num den)]
    field_simp
  rw [hquotient]
  exact roundHalfEven_near (Nat.mul_pos hd (twoPow_pos _))

/-- **No double is nearer** to a positive quotient than its number of steps, and none is as near unless that
number is even. -/
theorem stepCount_nearest (hn : 0 < num) (hd : 0 < den) (y : Finite) :
    |(num : ℚ) / den - stepCount num den * 2 ^ stepExponent num den| ≤ |(num : ℚ) / den - y.value| ∧
      (y.value ≠ stepCount num den * 2 ^ stepExponent num den →
        |(num : ℚ) / den - y.value| =
          |(num : ℚ) / den - stepCount num den * 2 ^ stepExponent num den| →
        stepCount num den % 2 = 0) := by
  obtain ⟨hnear, heven⟩ := @stepCount_near num den hd
  have hlog : (2 : ℚ) ^ floorLog2 num den * den ≤ num := floorLog2_le hn
  have hmin : -1074 ≤ y.exponent := y.canonical.2.1
  have hcases : stepExponent num den ≤ y.exponent ∨
      y.exponent < stepExponent num den ∧ floorLog2 num den = 52 + stepExponent num den := by
    unfold stepExponent
    omega
  have hpow : (0 : ℚ) < 2 ^ stepExponent num den := zpow_pos (by norm_num) _
  have hscale : ∀ k : ℚ, |(num : ℚ) / den - k * 2 ^ stepExponent num den| =
      |(num : ℚ) / den / 2 ^ stepExponent num den - k| * 2 ^ stepExponent num den := by
    intro k
    rw [← abs_of_pos hpow, ← abs_mul, abs_of_pos hpow, sub_mul, div_mul_cancel₀ _ hpow.ne']
  have hgrid : ∀ k : Int, |(num : ℚ) / den - stepCount num den * 2 ^ stepExponent num den| ≤
      |(num : ℚ) / den - k * 2 ^ stepExponent num den| := by
    intro k
    rw [hscale, hscale]
    exact mul_le_mul_of_nonneg_right (nearest_of_near (r := stepCount num den) hnear k).1 hpow.le
  rcases hcases with hcoarse | ⟨hfine, hexp⟩
  · -- a whole number of steps
    obtain ⟨k, hk⟩ := Finite.exists_multiple hcoarse
    rw [hk]
    refine ⟨hgrid k, fun hne htie => ?_⟩
    rw [hscale, hscale] at htie
    have htie' := mul_right_cancel₀ hpow.ne' htie
    refine heven ((nearest_of_near (r := stepCount num den) hnear k).2 ?_ htie')
    rintro rfl
    exact hne rfl
  · -- below the power of two at which the steps begin
    have hbelow : y.value < 2 ^ floorLog2 num den := by
      have hle : 53 + y.exponent ≤ floorLog2 num den := by omega
      exact (le_abs_self _).trans_lt
        (y.abs_value_lt.trans_le (zpow_le_zpow_right₀ (by norm_num) hle))
    have habove : (2 : ℚ) ^ floorLog2 num den ≤ num / den :=
      (le_div_iff₀ (Nat.cast_pos.mpr hd)).mpr hlog
    have hstart : ((twoPow 52 : Int) : ℚ) * 2 ^ stepExponent num den = 2 ^ floorLog2 num den := by
      rw [Int.cast_natCast, cast_twoPow, hexp, zpow_add₀ (by norm_num)]
      norm_num
    have hstrict : |(num : ℚ) / den - stepCount num den * 2 ^ stepExponent num den| <
        |(num : ℚ) / den - y.value| := by
      calc |(num : ℚ) / den - stepCount num den * 2 ^ stepExponent num den|
          ≤ |(num : ℚ) / den - (twoPow 52 : Int) * 2 ^ stepExponent num den| := hgrid _
        _ = num / den - 2 ^ floorLog2 num den := by rw [hstart, abs_of_nonneg (by linarith)]
        _ < num / den - y.value := by linarith
        _ ≤ |(num : ℚ) / den - y.value| := le_abs_self _
    exact ⟨hstrict.le, fun _ htie => absurd htie hstrict.ne'⟩

/-- The double that a positive quotient is rounded to has the value of its steps. -/
theorem value_of_round {negative : Bool} {s : Finite} (hn : 0 < num)
    (h : round negative num den = .finite s) :
    s.value = signed negative (stepCount num den) * 2 ^ stepExponent num den ∧
      s.significand % 2 = stepCount num den % 2 := by
  rw [round_of_pos negative hn] at h
  have hparts : ∀ {m : Nat} {e : Int}, ofParts negative m e = .finite s →
      s.value = signed negative m * 2 ^ e ∧ s.significand = m := by
    intro m e hparts
    unfold ofParts at hparts
    split at hparts
    · obtain rfl := Binary64.finite.inj hparts
      exact ⟨Finite.value_eq _, rfl⟩
    · cases hparts
  split at h
  · next hfull =>
    obtain ⟨hvalue, hsig⟩ := hparts h
    refine ⟨hvalue.trans ?_, by rw [hsig, hfull]; decide⟩
    rw [hfull, twoPow_succ 52, Nat.mul_comm 2, signed_mul, zpow_add_one₀ (by norm_num)]
    push_cast
    ring
  · obtain ⟨hvalue, hsig⟩ := hparts h
    exact ⟨hvalue, by rw [hsig]⟩

end Steps

/-- A double that has the value of the steps of a positive quotient is a nearest one, even at a tie. -/
theorem roundsTo_of_steps {num den : Nat} {s : Finite} (hn : 0 < num) (hd : 0 < den)
    (hvalue : s.value = stepCount num den * 2 ^ stepExponent num den)
    (hsig : s.significand % 2 = stepCount num den % 2) : RoundsTo (num / den) s := by
  constructor
  · intro y
    rw [hvalue]
    exact (stepCount_nearest hn hd y).1
  · intro y hne htie
    rw [hvalue] at hne htie
    rw [hsig]
    exact (stepCount_nearest hn hd y).2 hne htie

/-- The nearest double to the opposite quantity is the one of the opposite sign. -/
theorem RoundsTo.neg {v : ℚ} {s : Finite} (h : RoundsTo v s) :
    RoundsTo (-v) { s with negative := !s.negative } := by
  have hdistance : ∀ w : ℚ, |-v - w| = |v - -w| := by
    intro w
    rw [← abs_neg]
    ring_nf
  constructor
  · intro y
    have hnearest := h.nearest { y with negative := !y.negative }
    rw [Finite.value_neg] at hnearest
    rwa [Finite.value_neg, hdistance, hdistance, neg_neg]
  · intro y hne htie
    rw [Finite.value_neg] at hne htie
    rw [hdistance, hdistance, neg_neg] at htie
    refine h.even { y with negative := !y.negative } ?_ (by rwa [Finite.value_neg])
    rw [Finite.value_neg]
    intro heq
    exact hne (neg_eq_iff_eq_neg.mp heq)

/-- Zero is rounded to zero. -/
theorem roundsTo_zero {s : Finite} (h : s.value = 0) : RoundsTo 0 s := by
  constructor
  · intro y
    rw [h, sub_zero, abs_zero]
    exact abs_nonneg _
  · intro y hne htie
    rw [h] at hne htie
    rw [sub_zero, abs_zero, zero_sub, abs_neg, abs_eq_zero] at htie
    exact absurd htie hne

/-- **A finite double that a quotient is rounded to** is a nearest one, even at a tie. -/
theorem roundsTo_of_roundInt {num : Int} {den : Nat} {s : Finite} (hn : num ≠ 0) (hd : 0 < den)
    (h : roundInt num den = .finite s) : RoundsTo (num / den) s := by
  have hpos : 0 < num.natAbs := Int.natAbs_pos.mpr hn
  obtain ⟨hvalue, hsig⟩ := value_of_round hpos h
  by_cases hneg : num < 0
  · -- the magnitude is rounded to the opposite double
    rw [decide_eq_true hneg, signed, if_pos rfl, Int.cast_neg, Int.cast_natCast, neg_mul] at hvalue
    have hopposite := roundsTo_of_steps (s := { s with negative := !s.negative }) hpos hd
      (by rw [Finite.value_neg, hvalue, neg_neg]) hsig
    have hmagnitude := hopposite.neg
    rwa [Nat.cast_natAbs, abs_of_neg hneg, Int.cast_neg, neg_div, neg_neg, Bool.not_not] at hmagnitude
  · rw [decide_eq_false hneg, signed, if_neg Bool.false_ne_true, Int.cast_natCast] at hvalue
    have hmagnitude := roundsTo_of_steps hpos hd hvalue hsig
    rwa [Nat.cast_natAbs, abs_of_nonneg (not_lt.mp hneg)] at hmagnitude

/-! ## Sums -/

/-- **A finite sum of doubles** is the exact sum, rounded once. -/
theorem add_roundsTo {x y s : Finite} (h : (Binary64.finite x).add (.finite y) = .finite s) :
    RoundsTo (x.value + y.value) s := by
  have hsum : x.value + y.value =
      ((x.num * y.den + y.num * x.den : Int) : ℚ) / (x.den * y.den : Nat) := by
    rw [Finite.value, Finite.value, div_add_div _ _ x.cast_den_pos.ne' y.cast_den_pos.ne']
    push_cast
    ring
  rw [hsum]
  unfold add at h
  dsimp only at h
  split at h
  · next hzero =>
    rw [hzero, Int.cast_zero, zero_div]
    obtain rfl := Binary64.finite.inj h
    refine roundsTo_zero ?_
    rw [Finite.value_eq]
    cases x.negative && y.negative <;> simp [signed]
  · next hne => exact roundsTo_of_roundInt hne (Nat.mul_pos x.den_pos y.den_pos) h

end DesignMarkup.Binary64
