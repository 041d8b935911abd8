import DesignMarkup.Proofs.Number.Bounded
import DesignMarkup.Proofs.Number.Nearest
import Mathlib.Data.Rat.Floor

/-!
# `Proofs.Number.HalfUp` — the sum with one half and its floor

A number is rounded to a whole one by the floor of its double sum with one half. The sum is rounded, and
that is harmless as long as it stays below the whole number after the nearest one. It lies between the two
in any case, since both are doubles, or the number is whole itself and the sum is nearest. So the result is
the nearest whole number or the one after it, and the question is for which values the sum is rounded all
the way up. There are two kinds: the double just below one half, whose sum lies halfway between one and the
double before it, and the odd whole numbers of 53 bits, whose sums lie halfway between two whole numbers.
Both ties go upwards to the even significand.

## Contents

* `IsHalfUp`: the nearest whole number, halves upwards;
* `Oversteps`: the values that are rounded too far;
* `Finite.odd_significand`, `Finite.le_below_power`, `exists_sum_half`: whole doubles, doubles below a power
  of two, exact sums;
* `Gap`: where the sum lies;
* `odd_of_reached`, `reached_of_odd`, `gap_of_large`: where doubles have no fraction;
* `before_half_of_reached`, `reached_of_before_half`, `exact_of_neg`, `exact_of_upper_half`, `gap_of_small`:
  where they have one;
* `Number.roundHalfUp_nearest`: **the nearest whole number is found unless the value oversteps**.
-/

namespace DesignMarkup

/-- The nearest whole number, of two equally near ones the upper. -/
def IsHalfUp (v : ℚ) (q : Int) : Prop :=
  (q : ℚ) - 1 / 2 ≤ v ∧ v < q + 1 / 2

theorem isHalfUp_iff {v : ℚ} {q : Int} : IsHalfUp v q ↔ q = ⌊v + 1 / 2⌋ := by
  rw [eq_comm, Int.floor_eq_iff, IsHalfUp]
  constructor <;> rintro ⟨hlow, hhigh⟩ <;> constructor <;> linarith

theorem isHalfUp_intCast (n : Int) : IsHalfUp n n :=
  ⟨by linarith, by linarith⟩

namespace Binary64

/-- **The values that are rounded too far**: the double just below one half, and the odd whole numbers of 53
bits. -/
def Oversteps (v : ℚ) : Prop :=
  v = 1 / 2 - 2 ^ (-54 : Int) ∨
    ∃ n : Int, v = n ∧ n % 2 = 1 ∧ twoPow 52 < n.natAbs ∧ n.natAbs < twoPow 53

/-! ## Whole numbers and exact sums -/

theorem exists_whole {n : Int} (hn : n.natAbs ≤ twoPow 53) : ∃ y : Finite, y.value = n := by
  obtain ⟨y, hy⟩ := exists_finite hn (e := 0) (by decide) (by decide)
  exact ⟨y, by rw [hy, zpow_zero, mul_one]⟩

theorem cast_natAbs_le {n : Int} {b : Nat} : n.natAbs ≤ b ↔ |(n : ℚ)| ≤ b := by
  rw [← Nat.cast_le (α := ℚ), Nat.cast_natAbs, Int.cast_abs]

namespace Finite

/-- From 52 bits on, doubles have no fraction. -/
theorem exponent_nonneg {x : Finite} (h : 2 ^ 52 ≤ |x.value|) : 0 ≤ x.exponent := by
  have hlt : (2 : ℚ) ^ (52 : Int) < 2 ^ (53 + x.exponent) := by
    exact_mod_cast h.trans_lt x.abs_value_lt
  have hexp := (zpow_lt_zpow_iff_right₀ (by norm_num : (1 : ℚ) < 2)).mp hlt
  omega

/-- Below, their exponents are negative. -/
theorem exponent_neg {x : Finite} (h : |x.value| < 2 ^ 52) : x.exponent ≤ -1 := by
  by_contra hnonneg
  obtain ⟨-, -, -, hnormal⟩ := x.canonical
  have hsig : (twoPow 52 : ℚ) ≤ x.significand := Nat.cast_le.mpr (hnormal.resolve_right (by omega))
  have hpow : (1 : ℚ) ≤ 2 ^ x.exponent := one_le_zpow₀ (by norm_num) (by omega)
  rw [cast_twoPow] at hsig
  refine absurd h (not_lt.mpr ?_)
  calc (2 : ℚ) ^ 52 ≤ x.significand := hsig
    _ ≤ x.significand * 2 ^ x.exponent := le_mul_of_one_le_right (Nat.cast_nonneg _) hpow
    _ = |x.value| := x.abs_value.symm

theorem exists_int_of_large {x : Finite} (h : 2 ^ 52 ≤ |x.value|) : ∃ n : Int, x.value = n := by
  obtain ⟨n, hn⟩ := exists_multiple (exponent_nonneg h)
  exact ⟨n, by rw [hn, zpow_zero, mul_one]⟩

/-- **An odd whole double of 53 bits** has itself as its significand. -/
theorem odd_significand {x : Finite} {n : Int} (h : x.value = n) (hodd : n % 2 = 1)
    (hlarge : twoPow 52 ≤ n.natAbs) : x.significand % 2 = 1 ∧ n.natAbs < twoPow 53 := by
  have hle : (twoPow 52 : ℚ) ≤ |x.value| := by
    rw [h, ← Int.cast_abs, ← Nat.cast_natAbs]
    exact Nat.cast_le.mpr hlarge
  rw [cast_twoPow] at hle
  have hnonneg := exponent_nonneg hle
  have hzero : x.exponent = 0 := by
    by_contra hne
    obtain ⟨k, hk⟩ := exists_multiple (x := x) (e := 1) (by omega)
    have htwice : n = k * 2 := by
      rw [h, zpow_one] at hk
      exact_mod_cast hk
    omega
  have hn : n = signed x.negative x.significand := by
    rw [value_eq, hzero, zpow_zero, mul_one] at h
    exact_mod_cast h.symm
  have habs : n.natAbs = x.significand := by rw [hn, natAbs_signed]
  exact ⟨by omega, habs ▸ x.canonical.1⟩

/-- **No double lies right below a power of two**: it keeps a distance of one step. -/
theorem le_below_power {x : Finite} {k : Int} (hk : -1021 ≤ k) (h : x.value < 2 ^ k) :
    x.value ≤ 2 ^ k - 2 ^ (k - 53) := by
  obtain ⟨hsig, -, -, hnormal⟩ := x.canonical
  have hstep : (0 : ℚ) < 2 ^ (k - 53) := zpow_pos (by norm_num) _
  have hpower : (2 : ℚ) ^ k = 2 ^ 53 * 2 ^ (k - 53) := by
    rw [← zpow_natCast, ← zpow_add₀ (by norm_num)]
    congr 1
    omega
  rcases le_or_gt x.value 0 with hneg | hpos
  · rw [hpower]
    linarith
  have hvalue : x.value = x.significand * 2 ^ x.exponent := (abs_of_pos hpos).symm.trans x.abs_value
  rw [hvalue] at h ⊢
  rcases lt_or_ge (k - 53) x.exponent with hlarge | hsmall
  · -- with such a step it is not below the power
    have hfull : (2 : ℚ) ^ 52 ≤ x.significand := by
      rw [← cast_twoPow]
      exact Nat.cast_le.mpr (hnormal.resolve_right (by omega))
    refine absurd h (not_lt.mpr ?_)
    calc (2 : ℚ) ^ k = 2 ^ 52 * 2 ^ (k - 52) := by
          rw [← zpow_natCast, ← zpow_add₀ (by norm_num)]
          congr 1
          omega
      _ ≤ 2 ^ 52 * 2 ^ x.exponent := by
        gcongr
        · norm_num
        · omega
      _ ≤ x.significand * 2 ^ x.exponent := by gcongr
  · have hle : (x.significand : ℚ) ≤ 2 ^ 53 - 1 := by
      have hnat : x.significand + 1 ≤ twoPow 53 := hsig
      rw [← Nat.cast_le (α := ℚ), Nat.cast_add, cast_twoPow] at hnat
      push_cast at hnat
      linarith
    calc x.significand * (2 : ℚ) ^ x.exponent ≤ (2 ^ 53 - 1) * 2 ^ (k - 53) := by
          gcongr
          norm_num
      _ = 2 ^ k - 2 ^ (k - 53) := by rw [hpower]; ring

theorem floor_eq (x : Finite) : x.floor = ⌊x.value⌋ :=
  (Rat.floor_intCast_div_natCast x.num x.den).symm

end Finite

/-- **A sum with one half is a double** if it has at most 53 bits of the step of the double. -/
theorem exists_sum_half {x : Finite} (he : x.exponent ≤ -1)
    (hsum : |x.value + 1 / 2| ≤ 2 ^ (53 + x.exponent)) : ∃ y : Finite, y.value = x.value + 1 / 2 := by
  have hpow : (0 : ℚ) < 2 ^ x.exponent := zpow_pos (by norm_num) _
  have hhalf : (1 / 2 : ℚ) = twoPow (-1 - x.exponent).toNat * 2 ^ x.exponent := by
    have hshift : ((-1 - x.exponent).toNat : Int) + x.exponent = -1 := by omega
    rw [cast_twoPow, ← zpow_natCast, ← zpow_add₀ (by norm_num), hshift]
    norm_num
  have hk : x.value + 1 / 2 =
      ((signed x.negative x.significand + twoPow (-1 - x.exponent).toNat : Int) : ℚ) *
        2 ^ x.exponent := by
    rw [x.value_eq, hhalf]
    push_cast
    ring
  rw [hk]
  refine exists_finite ?_ x.canonical.2.1 (by omega)
  rw [hk, abs_mul, abs_of_pos hpow, zpow_add₀ (by norm_num), mul_le_mul_iff_left₀ hpow] at hsum
  rw [cast_natAbs_le, cast_twoPow]
  exact_mod_cast hsum

/-- A whole number below a power of two is a whole step below it. -/
theorem succ_le_power {n k : Int} (hn : 0 < n) (h : (n : ℚ) < 2 ^ k) : (n : ℚ) + 1 ≤ 2 ^ k := by
  have hone : (1 : ℚ) ≤ n := by exact_mod_cast hn
  have hk : 0 ≤ k := by
    by_contra hneg
    have hle : (2 : ℚ) ^ k ≤ 1 := zpow_le_one_of_nonpos₀ (by norm_num) (by omega)
    linarith
  have hpow : (2 : ℚ) ^ k = (twoPow k.toNat : Int) := by
    rw [Int.cast_natCast, cast_twoPow, ← zpow_natCast, Int.toNat_of_nonneg hk]
  rw [hpow, Int.cast_lt] at h
  rw [hpow]
  exact_mod_cast h

/-! ## Where the sum lies -/

/-- **Where the rounded sum lies**: between the nearest whole number and the one after it, and it reaches that
one exactly if the value oversteps. -/
structure Gap (v sum : ℚ) (q : Int) : Prop where
  lower : (q : ℚ) ≤ sum
  upper : sum ≤ (q : ℚ) + 1
  reached : sum = (q : ℚ) + 1 ↔ Oversteps v

section Sum

variable {x s y : Finite} {q : Int}

/-- At a tie between two whole numbers of 53 bits, an even one is chosen. -/
theorem even_of_tie {v : ℚ} {m n : Int} (h : RoundsTo v s) (hs : s.value = n) (hy : y.value = m)
    (htie : v - m = n - v) (hne : m ≠ n) (hlarge : twoPow 52 ≤ n.natAbs) : n % 2 = 0 := by
  have hother : y.value ≠ s.value := by
    rw [hs, hy]
    exact_mod_cast hne
  have heven : s.significand % 2 = 0 := by
    refine h.even y hother ?_
    rw [hs, hy, htie, abs_sub_comm]
  by_contra hodd
  have hsig := (Finite.odd_significand hs (by omega) hlarge).1
  omega

/-- A whole double of 53 bits whose sum is rounded up to the next whole number is odd. -/
theorem odd_of_reached (h : RoundsTo (x.value + 1 / 2) s) (hx : x.value = q)
    (hbits : twoPow 52 ≤ q.natAbs) (hs : s.value = q + 1) : q % 2 = 1 := by
  by_contra heven
  by_cases hnext : twoPow 52 ≤ (q + 1).natAbs
  · -- the number itself is as near, and its successor is odd
    have hsucc := even_of_tie (n := q + 1) h (by exact_mod_cast hs) hx (by rw [hx]; push_cast; ring)
      (by omega) hnext
    omega
  · -- right above the negative power of two there are halves again
    obtain rfl : q = -twoPow 52 := by omega
    obtain ⟨y, hy⟩ := exists_finite (k := 1 - twoPow 53) (e := -1) (by decide) (by decide) (by decide)
    have hexact : s.value = x.value + 1 / 2 := by
      refine h.exact (hy.trans ?_)
      rw [hx, twoPow_succ]
      push_cast
      ring
    linarith

/-- An odd whole number of 53 bits is not chosen at a tie, so the sum is rounded up to the next one. -/
theorem reached_of_odd (h : RoundsTo (x.value + 1 / 2) s) (hx : x.value = q) (hodd : q % 2 = 1)
    (hmin : twoPow 52 < q.natAbs) (hmax : q.natAbs < twoPow 53) (hlower : (q : ℚ) ≤ s.value)
    (hupper : s.value ≤ (q : ℚ) + 1) : s.value = q + 1 := by
  have hlarge : 2 ^ 52 ≤ |s.value| := by
    rw [← cast_twoPow]
    rcases lt_or_ge q 0 with hneg | hpos
    · have hle : ((q + 1 : Int) : ℚ) ≤ (-twoPow 52 : Int) := Int.cast_le.mpr (by omega)
      push_cast at hle
      exact le_abs.mpr (.inr (by linarith))
    · have hle : ((twoPow 52 : Int) : ℚ) ≤ q := Int.cast_le.mpr (by omega)
      push_cast at hle
      exact le_abs.mpr (.inl (by linarith))
  obtain ⟨m, hm⟩ := Finite.exists_int_of_large hlarge
  have hcases : m = q ∨ m = q + 1 := by
    rw [hm] at hlower hupper
    have hlower' : q ≤ m := by exact_mod_cast hlower
    have hupper' : m ≤ q + 1 := by exact_mod_cast hupper
    omega
  rcases hcases with rfl | rfl
  · obtain ⟨y, hy⟩ := exists_whole (n := m + 1) (by omega)
    have heven := even_of_tie h hm hy (by rw [hx]; push_cast; ring) (by omega) hmin.le
    omega
  · exact_mod_cast hm

/-- **Where doubles have no fraction**, the sum is a tie between two whole numbers. -/
theorem gap_of_large (h : RoundsTo (x.value + 1 / 2) s) (hlarge : 2 ^ 52 ≤ |x.value|)
    (hq : IsHalfUp x.value q) : Gap x.value s.value q := by
  have hx : x.value = q := by
    obtain ⟨n, hn⟩ := Finite.exists_int_of_large hlarge
    rw [hn] at hq ⊢
    rw [isHalfUp_iff.mp hq, ← isHalfUp_iff.mp (isHalfUp_intCast n)]
  have hbits : twoPow 52 ≤ q.natAbs := by
    rw [hx, ← Int.cast_abs, ← Nat.cast_natAbs] at hlarge
    rw [← Nat.cast_le (α := ℚ), cast_twoPow]
    exact hlarge
  have hnear := h.nearest x
  rw [hx, add_sub_cancel_left, abs_of_pos (by norm_num : (0 : ℚ) < 1 / 2)] at hnear
  obtain ⟨hlow, hhigh⟩ := abs_le.mp hnear
  have hlower : (q : ℚ) ≤ s.value := by linarith
  have hupper : s.value ≤ (q : ℚ) + 1 := by linarith
  refine ⟨hlower, hupper, fun hs => .inr ⟨q, hx, ?_⟩, ?_⟩
  · have hodd := odd_of_reached h hx hbits hs
    obtain ⟨-, hlt⟩ := Finite.odd_significand hx hodd hbits
    have heven : twoPow 52 % 2 = 0 := by decide
    exact ⟨hodd, by omega, hlt⟩
  · rintro (hsmall | ⟨n, hn, hodd, hmin, hmax⟩)
    · rw [hsmall] at hlarge
      norm_num at hlarge
    · obtain rfl : q = n := by exact_mod_cast hx.symm.trans hn
      exact reached_of_odd h hx hodd hmin hmax hlower hupper

/-- The double before one has an odd significand. -/
theorem exists_before_one : ∃ y : Finite, y.value = 1 - 2 * 2 ^ (-54 : Int) ∧ y.significand % 2 = 1 := by
  refine ⟨⟨false, twoPow 53 - 1, -53, by decide⟩, ?_, by decide⟩
  rw [Finite.value_eq]
  norm_num [signed, twoPow]

/-- The doubles below one. -/
theorem le_before_one (h : x.value < 1) : x.value ≤ 1 - 2 * 2 ^ (-54 : Int) := by
  have hgap := Finite.le_below_power (x := x) (k := 0) (by decide)
  have hstep : (2 : ℚ) ^ (-53 : Int) = 2 * 2 ^ (-54 : Int) := by norm_num
  rw [zpow_zero, zero_sub, hstep] at hgap
  exact hgap h

/-- The doubles below one half. -/
theorem le_before_half (h : x.value < 1 / 2) : x.value ≤ 1 / 2 - 2 ^ (-54 : Int) := by
  have hgap := Finite.le_below_power (x := x) (k := -1) (by decide)
  rw [zpow_neg_one, ← one_div] at hgap
  exact hgap h

/-- A sum below one that is rounded to one is at least halfway between one and the double before it, and only
the double just below one half has such a sum. -/
theorem before_half_of_reached (h : RoundsTo (x.value + 1 / 2) s) (hhigh : x.value < 1 / 2)
    (hs : s.value = 1) : x.value = 1 / 2 - 2 ^ (-54 : Int) := by
  obtain ⟨before, hbefore, -⟩ := exists_before_one
  have hgap := le_before_half hhigh
  have hpos : (0 : ℚ) < 2 ^ (-54 : Int) := by norm_num
  generalize (2 : ℚ) ^ (-54 : Int) = step at *
  have hbeyond : before.value < x.value + 1 / 2 := by
    by_contra hle
    have hcrossed := h.le (not_lt.mp hle)
    linarith
  have hnear := h.nearest before
  rw [hs, abs_of_nonpos (by linarith), abs_of_nonneg (by linarith)] at hnear
  exact le_antisymm hgap (by linarith)

/-- The sum of that double is exactly halfway, and one is the even side of the tie. -/
theorem reached_of_before_half (h : RoundsTo (x.value + 1 / 2) s)
    (hx : x.value = 1 / 2 - 2 ^ (-54 : Int)) : s.value = 1 := by
  obtain ⟨before, hbefore, hodd⟩ := exists_before_one
  obtain ⟨one, hone⟩ := exists_whole (n := 1) (by decide)
  rw [Int.cast_one] at hone
  have hgap : s.value < 1 → s.value ≤ 1 - 2 * 2 ^ (-54 : Int) := le_before_one
  have hpos : (0 : ℚ) < 2 ^ (-54 : Int) := by norm_num
  have hless : (2 : ℚ) ^ (-54 : Int) < 1 / 2 := by norm_num
  generalize (2 : ℚ) ^ (-54 : Int) = step at *
  have hsum : x.value + 1 / 2 = 1 - step := by linarith
  rw [hsum] at h
  have hle : s.value ≤ one.value := h.le (by linarith)
  by_contra hs
  have hbelow := hgap (lt_of_le_of_ne (hle.trans hone.le) hs)
  have hnear := h.nearest one
  rw [hone, abs_of_nonneg (by linarith), abs_of_nonpos (by linarith)] at hnear
  have hvalue : s.value = before.value := by linarith
  have heven : s.significand % 2 = 0 := by
    refine h.even one (by linarith) ?_
    rw [hone, hvalue, hbefore, abs_of_nonpos (by linarith), abs_of_nonneg (by linarith)]
    ring
  rw [Finite.eq_of_value_eq (by linarith) hvalue] at heven
  omega

/-- Below 52 bits a sum with at most 53 bits of the step is not rounded. -/
theorem sum_exact (h : RoundsTo (x.value + 1 / 2) s) (hsmall : |x.value| < 2 ^ 52)
    (hsum : |x.value + 1 / 2| ≤ 2 ^ (53 + x.exponent)) : s.value = x.value + 1 / 2 := by
  obtain ⟨y, hy⟩ := exists_sum_half (Finite.exponent_neg hsmall) hsum
  exact h.exact hy

/-- Of a negative number the sum is nearer to zero, so it is not rounded. -/
theorem exact_of_neg (h : RoundsTo (x.value + 1 / 2) s) (hsmall : |x.value| < 2 ^ 52)
    (hneg : x.value < -1 / 2) : s.value = x.value + 1 / 2 := by
  refine sum_exact h hsmall (le_trans ?_ x.abs_value_lt.le)
  rw [abs_of_nonpos (by linarith), abs_of_nonpos (by linarith)]
  linarith

/-- A sum in the upper half before a whole number is in the binade of the number, so it is not rounded. -/
theorem exact_of_upper_half (h : RoundsTo (x.value + 1 / 2) s) (hsmall : |x.value| < 2 ^ 52)
    (hq : 0 < q) (hlow : (q : ℚ) ≤ x.value) (hhigh : x.value < (q : ℚ) + 1 / 2) :
    s.value = x.value + 1 / 2 := by
  have hpos : (0 : ℚ) < q := Int.cast_pos.mpr hq
  have hpower : (q : ℚ) < 2 ^ (53 + x.exponent) :=
    hlow.trans_lt ((le_abs_self _).trans_lt x.abs_value_lt)
  have hstep := succ_le_power hq hpower
  refine sum_exact h hsmall ?_
  rw [abs_of_nonneg (by linarith)]
  linarith

/-- Whole numbers next to a number below 52 bits are doubles. -/
theorem natAbs_of_small {v : ℚ} (hsmall : |v| < 2 ^ 52) (hq : IsHalfUp v q) :
    q.natAbs ≤ twoPow 53 ∧ (q + 1).natAbs ≤ twoPow 53 := by
  obtain ⟨hlow, hhigh⟩ := hq
  obtain ⟨hneg, hpos⟩ := abs_lt.mp hsmall
  rw [← cast_twoPow] at hneg hpos
  have htwice : twoPow 53 = 2 * twoPow 52 := twoPow_succ 52
  have hone : 0 < twoPow 52 := twoPow_pos 52
  have hmin : ((-twoPow 52 - 1 : Int) : ℚ) < q := by
    push_cast
    linarith
  have hmax : (q : ℚ) < (twoPow 52 + 1 : Int) := by
    push_cast
    linarith
  rw [Int.cast_lt] at hmin hmax
  omega

/-- Of numbers below 52 bits only the one just below a half oversteps. -/
theorem oversteps_iff_of_small {v : ℚ} (hsmall : |v| < 2 ^ 52) :
    Oversteps v ↔ v = 1 / 2 - 2 ^ (-54 : Int) := by
  refine or_iff_left ?_
  rintro ⟨n, hn, -, hlarge, -⟩
  rw [hn, ← Int.cast_abs, ← Nat.cast_natAbs, ← cast_twoPow, Nat.cast_lt] at hsmall
  omega

/-- **Where doubles have a fraction**, the sum is rounded up to a whole number only next to one half. -/
theorem gap_of_small (h : RoundsTo (x.value + 1 / 2) s) (hsmall : |x.value| < 2 ^ 52)
    (hq : IsHalfUp x.value q) : Gap x.value s.value q := by
  obtain ⟨hbits, hbits'⟩ := natAbs_of_small hsmall hq
  obtain ⟨below, hbelow⟩ := exists_whole hbits
  obtain ⟨above, habove⟩ := exists_whole hbits'
  rw [Int.cast_add, Int.cast_one] at habove
  obtain ⟨hlow, hhigh⟩ := hq
  have hlower : (q : ℚ) ≤ s.value := hbelow ▸ h.ge (by linarith)
  have hupper : s.value ≤ (q : ℚ) + 1 := habove ▸ h.le (by linarith)
  refine ⟨hlower, hupper, Iff.trans ?_ (oversteps_iff_of_small hsmall).symm⟩
  rcases lt_trichotomy q 0 with hneg | rfl | hpos
  · have hq' : (q : ℚ) ≤ -1 := by exact_mod_cast Int.le_sub_one_of_lt hneg
    have hexact := exact_of_neg h hsmall (by linarith)
    refine iff_of_false (by linarith) fun heq => ?_
    rw [heq] at hhigh
    norm_num at hhigh
    linarith
  · rw [Int.cast_zero, zero_add] at hhigh ⊢
    exact ⟨before_half_of_reached h hhigh, reached_of_before_half h⟩
  · have hq' : (1 : ℚ) ≤ q := by exact_mod_cast hpos
    refine iff_of_false (fun hs => ?_) fun heq => ?_
    · -- the sum would be nearer to the whole number below if it were in the lower half
      have hnear := h.nearest below
      rw [hs, hbelow, abs_of_nonpos (by linarith), abs_of_nonneg (by linarith)] at hnear
      have hexact := exact_of_upper_half h hsmall hpos (by linarith) hhigh
      linarith
    · rw [heq] at hlow
      norm_num at hlow
      linarith

/-- **Where the sum lies**, whatever the double. -/
theorem gap_of_roundsTo (h : RoundsTo (x.value + 1 / 2) s) (hq : IsHalfUp x.value q) :
    Gap x.value s.value q := by
  rcases lt_or_ge |x.value| (2 ^ 52) with hsmall | hlarge
  · exact gap_of_small h hsmall hq
  · exact gap_of_large h hlarge hq

/-- **The floor of the sum** is the nearest whole number exactly if the value does not overstep, and else the
one after it. -/
theorem Gap.floor {v sum : ℚ} (h : Gap v sum q) :
    (⌊sum⌋ = q ↔ ¬Oversteps v) ∧ (Oversteps v → ⌊sum⌋ = q + 1) := by
  have hover : Oversteps v → ⌊sum⌋ = q + 1 := by
    intro hover
    rw [h.reached.mpr hover]
    exact_mod_cast Int.floor_intCast (q + 1)
  refine ⟨⟨fun hfloor hv => ?_, fun hnot => ?_⟩, hover⟩
  · have hnext := hover hv
    omega
  · have hlt : sum < (q : ℚ) + 1 := lt_of_le_of_ne h.upper fun heq => hnot (h.reached.mp heq)
    exact Int.floor_eq_iff.mpr ⟨h.lower, hlt⟩

end Sum

/-- **The sum with one half**, correctly rounded. -/
theorem add_half_roundsTo (x : Finite) :
    ∃ h s : Finite, half = .finite h ∧ h.value = 1 / 2 ∧ (Binary64.finite x).add half = .finite s ∧
      RoundsTo (x.value + 1 / 2) s := by
  obtain ⟨h, hhalf, hnum⟩ := half_eq
  obtain ⟨s, hs⟩ := add_half_finite x
  have hvalue : h.value = 1 / 2 := by
    have hcast : (2 : ℚ) * h.num = h.den := by exact_mod_cast hnum
    rw [Finite.value, div_eq_div_iff h.cast_den_pos.ne' (by norm_num)]
    linarith
  refine ⟨h, s, hhalf, hvalue, hs, ?_⟩
  rw [hhalf] at hs
  rw [← hvalue]
  exact add_roundsTo hs

end Binary64

namespace Number

open Binary64

/-! ## The nearest whole number -/

/-- The floor of the sum is the result. -/
theorem roundHalfUp_of_sum {x s : Finite} (h : (Binary64.finite x).add half = .finite s) :
    (double (.finite x)).roundHalfUp = .ok ⌊s.value⌋ := by
  rw [roundHalfUp, toDouble, ok_bind, h, floorDouble, s.floor_eq]

/-- What a double is rounded to. -/
theorem roundHalfUp_double {x : Finite} {q : Int} (hq : IsHalfUp x.value q) :
    ((double (.finite x)).roundHalfUp = .ok q ↔ ¬Oversteps x.value) ∧
      (Oversteps x.value → (double (.finite x)).roundHalfUp = .ok (q + 1)) := by
  obtain ⟨-, s, -, -, hs, hrounds⟩ := add_half_roundsTo x
  obtain ⟨hnearest, hnext⟩ := (gap_of_roundsTo hrounds hq).floor
  rw [roundHalfUp_of_sum hs, Except.ok.injEq]
  exact ⟨hnearest, fun hover => congrArg _ (hnext hover)⟩

/-- A whole number of up to 53 bits has a double of its value. -/
theorem toDouble_whole {n : Int} (hn : n.natAbs ≤ twoPow 53) :
    ∃ x : Finite, (int n).toDouble = .ok (.finite x) ∧ x.value = n := by
  by_cases hzero : n = 0
  · rw [hzero]
    refine ⟨⟨false, 0, -1074, by decide⟩, rfl, ?_⟩
    rw [Finite.value_eq]
    simp [signed]
  · obtain ⟨x, hx⟩ := exists_whole hn
    have hnum : n * x.den = x.num * (1 : Nat) := by
      rw [Finite.value, div_eq_iff x.cast_den_pos.ne'] at hx
      rw [Nat.cast_one, Int.mul_one]
      exact_mod_cast hx.symm
    refine ⟨x, ?_, hx⟩
    rw [toDouble, ofInt?, roundInt_exact hzero Nat.one_pos hnum]

/-- **The nearest whole number is found, halves upwards, exactly if the value does not overstep**, and else
it is the one after it that is found: for a whole number of up to 53 bits, which is nearest itself, and for
every finite double. The sum with one half, of which the floor is taken, is correctly rounded. -/
theorem roundHalfUp_nearest (n : Int) (x : Finite) :
    (n.natAbs ≤ twoPow 53 →
      ((int n).roundHalfUp = .ok n ↔ ¬Oversteps n) ∧
        (Oversteps n → (int n).roundHalfUp = .ok (n + 1))) ∧
    (∃ q : Int, (∀ p, IsHalfUp x.value p ↔ p = q) ∧
      ((double (.finite x)).roundHalfUp = .ok q ↔ ¬Oversteps x.value) ∧
      (Oversteps x.value → (double (.finite x)).roundHalfUp = .ok (q + 1))) ∧
    ∃ h s : Finite, half = .finite h ∧ h.value = 1 / 2 ∧
      (Binary64.finite x).add half = .finite s ∧ RoundsTo (x.value + 1 / 2) s ∧
      (double (.finite x)).roundHalfUp = .ok ⌊s.value⌋ := by
  refine ⟨fun hn => ?_, ?_, ?_⟩
  · obtain ⟨y, hdouble, hvalue⟩ := toDouble_whole hn
    have hsame : (int n).roundHalfUp = (double (.finite y)).roundHalfUp := by
      rw [roundHalfUp, hdouble]
      rfl
    rw [hsame, ← hvalue]
    exact roundHalfUp_double (hvalue ▸ isHalfUp_intCast n)
  · have hq : ∀ p, IsHalfUp x.value p ↔ p = ⌊x.value + 1 / 2⌋ := fun p => isHalfUp_iff
    exact ⟨_, hq, roundHalfUp_double ((hq _).mpr rfl)⟩
  · obtain ⟨h, s, hhalf, hvalue, hs, hrounds⟩ := add_half_roundsTo x
    exact ⟨h, s, hhalf, hvalue, hs, hrounds, roundHalfUp_of_sum hs⟩

/-- The double just below one half. -/
def belowHalf : Finite :=
  ⟨false, twoPow 53 - 1, -54, by decide⟩

/-- Seven is rounded to itself. -/
theorem seven_rounded : (7 : Int).natAbs ≤ twoPow 53 ∧ (int 7).roundHalfUp = .ok 7 := by
  have hbits : (7 : Int).natAbs ≤ twoPow 53 := by decide
  refine ⟨hbits, ((roundHalfUp_nearest 7 belowHalf).1 hbits).1.mpr ?_⟩
  rintro (h | ⟨n, h, -, hlarge, -⟩)
  · norm_num at h
  · obtain rfl : (7 : Int) = n := by exact_mod_cast h
    exact absurd hlarge (by decide)

/-- **The double just below one half is rounded to one**, and an odd whole number of 53 bits to the next
one, although zero and the number itself are nearest. -/
theorem belowHalf_rounded_to_one :
    (double (.finite belowHalf)).roundHalfUp = .ok 1 ∧ IsHalfUp belowHalf.value 0 ∧
      ¬IsHalfUp belowHalf.value 1 ∧
      (4503599627370497 : Int).natAbs ≤ twoPow 53 ∧
      (int 4503599627370497).roundHalfUp = .ok 4503599627370498 := by
  have hvalue : belowHalf.value = 1 / 2 - 2 ^ (-54 : Int) := by
    rw [Finite.value_eq]
    norm_num [belowHalf, signed, twoPow]
  have hzero : IsHalfUp belowHalf.value 0 := by
    rw [hvalue]
    constructor <;> norm_num
  refine ⟨(roundHalfUp_double hzero).2 (.inl hvalue), hzero, ?_, by decide, rfl⟩
  rw [hvalue]
  rintro ⟨hlow, -⟩
  norm_num at hlow

end Number

end DesignMarkup
