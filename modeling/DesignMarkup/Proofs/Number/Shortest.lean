import DesignMarkup.Number.Shortest
import DesignMarkup.Proofs.Number.Unique
import Mathlib.Algebra.Order.Floor.Semifield
import Mathlib.Data.Nat.Cast.Order.Field

/-!
# `Proofs.Number.Shortest` — the numeral that is chosen is shortest

The search tries grids of one digit to seventeen, and on each of them it looks at the two neighbours of the
value only. That is enough: the quantities that are rounded to a double form an interval around it, so if any
point of a grid reads back, a neighbour does. On the grid of seventeen digits the nearest point reads back,
since doubles are farther apart than its steps. So the numeral that is found has the fewest digits with which
the double can be written, and no other numeral of that length is nearer to it.

## Contents

* `Decimal.value`, `Decimal.top`, `HasDigits`: values and lengths of numerals;
* `leadingExponent_bounds`: **the leading digit** of a quotient;
* `readsBack_iff`: **a numeral reads back** if it is rounded to the double;
* `GridChoice`, `gridChoice_of_onGrid`, `exists_onGrid`: **one grid**;
* `exists_seventeen`, `shortest_spec`: **the first grid** on which something is found;
* `IsShortest`, `isShortest_shortest`, `isShortest_whole`: **the shortest numerals** of doubles.
-/

namespace DesignMarkup

/-! ## Numerals -/

/-- The value of a numeral. -/
def Decimal.value (d : Decimal) : ℚ :=
  d.digits * 10 ^ d.exponent

/-- The exponent of the first power of ten above a numeral. -/
def Decimal.top (d : Decimal) : Int :=
  (Nat.toDigits 10 d.digits).length + d.exponent

/-- **Numerals of a length**: the quantity has so many significant digits at most. -/
def HasDigits (v : ℚ) (k : Nat) : Prop :=
  ∃ (s : Nat) (e : Int), s < 10 ^ k ∧ |v| = s * 10 ^ e

theorem HasDigits.neg {v : ℚ} {k : Nat} (h : HasDigits v k) : HasDigits (-v) k := by
  unfold HasDigits at h ⊢
  rwa [abs_neg]

theorem HasDigits.mono {v : ℚ} {k l : Nat} (h : HasDigits v k) (hkl : k ≤ l) : HasDigits v l := by
  obtain ⟨s, e, hs, hv⟩ := h
  exact ⟨s, e, hs.trans_le (Nat.pow_le_pow_right (by decide) hkl), hv⟩

namespace Binary64

/-! ## Powers of ten -/

theorem ten_zpow_pos (e : Int) : (0 : ℚ) < 10 ^ e :=
  zpow_pos (by norm_num) e

theorem lt_of_ten_zpow_lt {e f : Int} (h : (10 : ℚ) ^ e < 10 ^ f) : e < f :=
  (zpow_lt_zpow_iff_right₀ (by norm_num)).mp h

theorem cast_tenPow (n : Nat) : (tenPow n : ℚ) = 10 ^ n :=
  Nat.cast_pow 10 n

/-- A power of ten with any exponent, as a quotient of whole powers. -/
theorem tenPow_toNat (e : Int) : (tenPow e.toNat : ℚ) = 10 ^ e * tenPow (-e).toNat := by
  rw [cast_tenPow, cast_tenPow, ← zpow_natCast, ← zpow_natCast, ← zpow_add₀ (by norm_num)]
  congr 1
  omega

/-- The steps of a grid that make up a power of ten. -/
theorem tenPow_mul_step (n : Nat) (e : Int) : (tenPow n : ℚ) * 10 ^ (e - n) = 10 ^ e := by
  rw [cast_tenPow, ← zpow_natCast, ← zpow_add₀ (by norm_num)]
  congr 1
  omega

/-- The whole part of a quotient. -/
theorem cast_div_bounds (a b : Nat) : ((a / b : Nat) : ℚ) ≤ a / b ∧ (a : ℚ) / b < (a / b : Nat) + 1 := by
  refine ⟨Nat.cast_div_le, ?_⟩
  rw [← Nat.floor_div_eq_div (K := ℚ)]
  exact Nat.lt_floor_add_one _

/-- **The digits of a positive whole number** reach its leading power of ten. -/
theorem toDigits_bounds {n : Nat} (hn : 0 < n) :
    (10 : ℚ) ^ (((Nat.toDigits 10 n).length : Int) - 1) ≤ n ∧
      (n : ℚ) + 1 ≤ 10 ^ ((Nat.toDigits 10 n).length : Int) := by
  have hpos : 0 < (Nat.toDigits 10 n).length := Nat.length_toDigits_pos
  have habove : n < 10 ^ (Nat.toDigits 10 n).length :=
    (Nat.length_toDigits_le_iff (by decide) hpos).mp le_rfl
  have hbelow : 10 ^ ((Nat.toDigits 10 n).length - 1) ≤ n := by
    by_contra hlt
    rcases Nat.eq_zero_or_pos ((Nat.toDigits 10 n).length - 1) with hzero | hshorter
    · rw [hzero, pow_zero] at hlt
      omega
    · have hle := (Nat.length_toDigits_le_iff (by decide) hshorter).mpr (not_le.mp hlt)
      omega
  have hexp : ((Nat.toDigits 10 n).length : Int) - 1 = ((Nat.toDigits 10 n).length - 1 : Nat) := by omega
  rw [hexp, zpow_natCast, zpow_natCast]
  exact ⟨by exact_mod_cast hbelow, by exact_mod_cast habove⟩

/-- So do those of a quotient that is not below one. -/
theorem toDigits_div_bounds {a b : Nat} (hb : 0 < b) (hab : b ≤ a) :
    (10 : ℚ) ^ (((Nat.toDigits 10 (a / b)).length : Int) - 1) ≤ a / b ∧
      (a : ℚ) / b < 10 ^ ((Nat.toDigits 10 (a / b)).length : Int) := by
  obtain ⟨hbelow, habove⟩ := toDigits_bounds (Nat.div_pos hab hb)
  obtain ⟨hfloor, hceil⟩ := cast_div_bounds a b
  exact ⟨hbelow.trans hfloor, hceil.trans_le habove⟩

/-- **The leading digit of a quotient** that is not below `10 ^ -325`. -/
theorem leadingExponent_bounds {num den : Nat} (hd : 0 < den) (hmin : den ≤ num * tenPow 325) :
    (10 : ℚ) ^ leadingExponent num den ≤ num / den ∧
      (num : ℚ) / den < 10 ^ (leadingExponent num den + 1) := by
  unfold leadingExponent
  split
  · next hle =>
    rw [Int.sub_add_cancel]
    exact toDigits_div_bounds hd hle
  · -- the quotient is moved up by 325 places, and its exponent down
    obtain ⟨hbelow, habove⟩ := toDigits_div_bounds hd hmin
    have hmoved : ((num * tenPow 325 : Nat) : ℚ) / den = num / den * 10 ^ (325 : Int) := by
      rw [Nat.cast_mul, cast_tenPow, mul_div_right_comm]
      norm_num
    rw [hmoved] at hbelow habove
    generalize ((Nat.toDigits 10 (num * tenPow 325 / den)).length : Int) = l at *
    have hpow := ten_zpow_pos 325
    have hlow : l - 1 = l - 326 + 325 := by omega
    have hhigh : l = l - 326 + 1 + 325 := by omega
    rw [hlow, zpow_add₀ (by norm_num), mul_le_mul_iff_left₀ hpow] at hbelow
    rw [hhigh, zpow_add₀ (by norm_num), mul_lt_mul_iff_left₀ hpow] at habove
    exact ⟨hbelow, habove⟩

/-- The value of a numeral as the quotient that is rounded. -/
theorem decimal_value_eq_div (d : Decimal) :
    d.value = ((d.digits * tenPow d.exponent.toNat : Nat) : ℚ) / tenPow (-d.exponent).toNat := by
  have hpow : (tenPow (-d.exponent).toNat : ℚ) ≠ 0 := Nat.cast_ne_zero.mpr (tenPow_pos _).ne'
  rw [eq_div_iff hpow, Decimal.value, Nat.cast_mul, tenPow_toNat d.exponent]
  ring

/-- **The leading digit of a numeral.** -/
theorem decimal_value_bounds {d : Decimal} (hd : 0 < d.digits) :
    (10 : ℚ) ^ (d.top - 1) ≤ d.value ∧ d.value < 10 ^ d.top := by
  obtain ⟨hbelow, habove⟩ := toDigits_bounds hd
  have hpow := ten_zpow_pos d.exponent
  have hlow : d.top - 1 = ((Nat.toDigits 10 d.digits).length : Int) - 1 + d.exponent := by
    unfold Decimal.top
    omega
  rw [hlow, Decimal.top, zpow_add₀ (by norm_num), zpow_add₀ (by norm_num), Decimal.value]
  constructor
  · exact mul_le_mul_of_nonneg_right hbelow hpow.le
  · apply mul_lt_mul_of_pos_right _ hpow
    linarith

/-! ## Reading back -/

section Reading

variable {x y : Finite} {d : Decimal} {v : ℚ}

/-- The exponent of the leading digit of a double. -/
def Finite.leading (x : Finite) : Int :=
  leadingExponent x.magnitude x.den

theorem Finite.significand_pos (hx : x.value ≠ 0) : 0 < x.significand := by
  by_contra hzero
  have hsig : x.significand = 0 := by omega
  rw [← abs_ne_zero, abs_value, hsig, Nat.cast_zero, zero_mul] at hx
  exact hx rfl

/-- The least magnitude of a double. -/
theorem Finite.least_le (hx : x.value ≠ 0) : 2 ^ (-1074 : Int) ≤ |x.value| := by
  obtain ⟨-, hmin, -, -⟩ := x.canonical
  have hone : (1 : ℚ) ≤ x.significand := Nat.one_le_cast.mpr (significand_pos hx)
  have hpow : (0 : ℚ) < 2 ^ x.exponent := zpow_pos (by norm_num) _
  calc (2 : ℚ) ^ (-1074 : Int) ≤ 2 ^ x.exponent := zpow_le_zpow_right₀ (by norm_num) hmin
    _ ≤ x.significand * 2 ^ x.exponent := le_mul_of_one_le_left hpow.le hone
    _ = |x.value| := x.abs_value.symm

/-- **The leading digit of a double.** -/
theorem Finite.leading_bounds (hx : x.value ≠ 0) :
    (10 : ℚ) ^ x.leading ≤ |x.value| ∧ |x.value| < 10 ^ (x.leading + 1) := by
  have hpos : 0 < x.magnitude := Nat.mul_pos (significand_pos hx) (twoPow_pos _)
  have hpowers : twoPow 1074 ≤ tenPow 325 := by decide +kernel
  have hden : x.den ≤ twoPow 1074 := by
    obtain ⟨-, hmin, -, -⟩ := x.canonical
    exact twoPow_le_twoPow (by omega)
  rw [abs_value_eq_div]
  apply leadingExponent_bounds x.den_pos
  exact (hden.trans hpowers).trans (Nat.le_mul_of_pos_left _ hpos)

/-- No double is above the greatest one. -/
theorem Finite.abs_value_le (x : Finite) : |x.value| ≤ greatest := by
  rw [abs_value_eq_div, div_le_iff₀ x.cast_den_pos]
  exact_mod_cast x.magnitude_le

/-- What goes to a double that is not the greatest does not overflow. -/
theorem lt_overflow_of_roundsTo (h : RoundsTo v x.unsigned) (hy : |x.value| < y.value) :
    v < overflowBound := by
  have hbelow : v < y.value := by
    by_contra hle
    have hcrossed := h.ge (not_lt.mp hle)
    rw [Finite.value_unsigned] at hcrossed
    linarith
  have hbound : greatest ≤ overflowBound := by
    have hlt := greatest_lt
    omega
  calc v < y.value := hbelow
    _ ≤ |y.value| := le_abs_self _
    _ ≤ greatest := y.abs_value_le
    _ ≤ overflowBound := Nat.cast_le.mpr hbound

/-- **A numeral that reads back** is rounded to the double. -/
theorem roundsTo_of_readsBack (hx : x.value ≠ 0) (h : x.readsBack d = true) :
    RoundsTo d.value x.unsigned := by
  have hzero : ∀ negative, zero negative ≠ .finite x := by
    intro negative heq
    obtain rfl := Binary64.finite.inj heq
    simp [Finite.value_eq, signed] at hx
  have hread : ofDecimal x.negative d.digits d.exponent = .finite x := beq_iff_eq.mp h
  unfold ofDecimal at hread
  dsimp only at hread
  split at hread
  · exact absurd hread (hzero _)
  · next hdigits =>
    split at hread
    · cases hread
    · split at hread
      · exact absurd hread (hzero _)
      · rw [decimal_value_eq_div]
        exact roundsTo_of_round (Nat.mul_pos (Nat.pos_of_ne_zero hdigits) (tenPow_pos _)) (tenPow_pos _) hread

/-- **A numeral that is rounded to the double reads back**, unless it overflows: it is neither so large nor so
small that its power of ten is not computed. -/
theorem readsBack_of_roundsTo (hx : x.value ≠ 0) (h : RoundsTo d.value x.unsigned)
    (hfits : d.value < overflowBound) : x.readsBack d = true := by
  have hvalue : 0 < d.value := h.pos (Finite.unsigned_pos hx)
  have hdigits : d.digits ≠ 0 := by
    intro hzero
    rw [Decimal.value, hzero, Nat.cast_zero, zero_mul] at hvalue
    exact hvalue.false
  obtain ⟨hbelow, habove⟩ := decimal_value_bounds (Nat.pos_of_ne_zero hdigits)
  have hsmall : ¬310 < d.top := by
    have hbound : overflowBound ≤ tenPow 309 := by decide +kernel
    have hlt : (10 : ℚ) ^ (d.top - 1) < 10 ^ (309 : Int) := by
      calc (10 : ℚ) ^ (d.top - 1) ≤ d.value := hbelow
        _ < overflowBound := hfits
        _ ≤ tenPow 309 := Nat.cast_le.mpr hbound
        _ = 10 ^ (309 : Int) := by rw [cast_tenPow]; norm_num
    have hexp := lt_of_ten_zpow_lt hlt
    omega
  have hlarge : ¬d.top < -330 := by
    intro htop
    -- zero would be nearer to it than the double
    obtain ⟨zero, hzero⟩ := exists_whole (n := 0) (by decide)
    have hnear := h.nearest zero
    rw [hzero, Int.cast_zero, sub_zero, abs_of_pos hvalue, Finite.value_unsigned, abs_sub_comm] at hnear
    have hleast := Finite.least_le hx
    have hle : |x.value| - d.value ≤ d.value := (le_abs_self _).trans hnear
    have htiny : (10 : ℚ) ^ d.top ≤ 10 ^ (-331 : Int) := zpow_le_zpow_right₀ (by norm_num) (by omega)
    have hpowers : 2 * (10 : ℚ) ^ (-331 : Int) < 2 ^ (-1074 : Int) := by
      have hnat : 2 * twoPow 1074 < tenPow 331 := by decide +kernel
      rw [← Nat.cast_lt (α := ℚ), Nat.cast_mul, cast_twoPow, cast_tenPow, ← zpow_natCast, ← zpow_natCast]
        at hnat
      rw [zpow_neg, zpow_neg, ← div_eq_mul_inv, ← one_div,
        div_lt_div_iff₀ (ten_zpow_pos _) (zpow_pos (by norm_num) _), one_mul]
      exact hnat
    linarith
  have hround : round x.negative (d.digits * tenPow d.exponent.toNat) (tenPow (-d.exponent).toNat) =
      .finite x := by
    rw [decimal_value_eq_div] at h hfits
    refine round_of_roundsTo hx (tenPow_pos _) h ?_
    rw [div_lt_iff₀ (Nat.cast_pos.mpr (tenPow_pos _))] at hfits
    exact_mod_cast hfits
  unfold Finite.readsBack ofDecimal
  unfold Decimal.top at hsmall hlarge
  dsimp only
  rw [if_neg hdigits, if_neg hsmall, if_neg hlarge, hround]
  exact beq_self_eq_true _

theorem readsBack_iff (hx : x.value ≠ 0) (hy : |x.value| < y.value) :
    x.readsBack d = true ↔ RoundsTo d.value x.unsigned :=
  ⟨roundsTo_of_readsBack hx, fun h => readsBack_of_roundsTo hx h (lt_overflow_of_roundsTo h hy)⟩

end Reading

/-! ## One grid -/

section Grid

variable {x y : Finite} {e : Int} {k : Nat} {d : Decimal} {v : ℚ}

/-- The quotient of a double and a step of a grid, as it is computed. -/
theorem abs_value_div_step (x : Finite) (e : Int) :
    |x.value| / 10 ^ e =
      ((x.magnitude * tenPow (-e).toNat : Nat) : ℚ) / (x.den * tenPow e.toNat : Nat) := by
  have hscale : (tenPow (-e).toNat : ℚ) ≠ 0 := Nat.cast_ne_zero.mpr (tenPow_pos _).ne'
  rw [x.abs_value_eq_div, Nat.cast_mul, Nat.cast_mul, tenPow_toNat e, div_div, ← mul_assoc,
    mul_div_mul_right _ _ hscale]

/-- The steps of a grid that lie below a double. -/
def Finite.steps (x : Finite) (e : Int) : Nat :=
  x.magnitude * tenPow (-e).toNat / (x.den * tenPow e.toNat)

/-- **The neighbours of a double on a grid.** -/
theorem Finite.steps_bounds (x : Finite) (e : Int) :
    x.steps e * (10 : ℚ) ^ e ≤ |x.value| ∧ |x.value| < (x.steps e + 1 : Nat) * (10 : ℚ) ^ e := by
  obtain ⟨hbelow, habove⟩ :=
    cast_div_bounds (x.magnitude * tenPow (-e).toNat) (x.den * tenPow e.toNat)
  rw [← abs_value_div_step] at hbelow habove
  rw [← le_div_iff₀ (ten_zpow_pos e), ← div_lt_iff₀ (ten_zpow_pos e), Nat.cast_add, Nat.cast_one]
  exact ⟨hbelow, habove⟩

/-- Rounding to a whole number takes the one below or the one above. -/
theorem roundHalfEven_eq (a b : Nat) : roundHalfEven a b = a / b ∨ roundHalfEven a b = a / b + 1 := by
  unfold roundHalfEven
  dsimp only
  split
  · exact .inl rfl
  · split
    · exact .inr rfl
    · split
      · exact .inl rfl
      · exact .inr rfl

/-- Distances on a grid, in steps. -/
theorem abs_sub_step (v : ℚ) (k : Nat) (e : Int) : |v - k * 10 ^ e| = |v / 10 ^ e - k| * 10 ^ e := by
  have hpow := ten_zpow_pos e
  rw [← abs_of_pos hpow, ← abs_mul, abs_of_pos hpow, sub_mul, div_mul_cancel₀ _ hpow.ne']

/-- The neighbour that rounding chooses is a nearest point of the grid, at most half a step away. -/
theorem nearest_step (x : Finite) (e : Int) :
    ∃ r : Nat, roundHalfEven (x.magnitude * tenPow (-e).toNat) (x.den * tenPow e.toNat) = r ∧
      (r = x.steps e ∨ r = x.steps e + 1) ∧ 2 * |x.unsigned.value - r * 10 ^ e| ≤ 10 ^ e ∧
      ∀ k : Nat, |x.unsigned.value - r * 10 ^ e| ≤ |x.unsigned.value - k * 10 ^ e| := by
  have hpow := ten_zpow_pos e
  have hden : 0 < x.den * tenPow e.toNat := Nat.mul_pos x.den_pos (tenPow_pos _)
  refine ⟨_, rfl, roundHalfEven_eq _ _, ?_⟩
  have hnear := (roundHalfEven_near (a := x.magnitude * tenPow (-e).toNat) hden).1
  rw [← abs_value_div_step] at hnear
  rw [Finite.value_unsigned]
  constructor
  · rw [abs_sub_step]
    have hscaled := mul_le_mul_of_nonneg_right hnear hpow.le
    linarith
  · intro k
    rw [abs_sub_step, abs_sub_step]
    apply mul_le_mul_of_nonneg_right _ hpow.le
    exact_mod_cast (nearest_of_near (r := roundHalfEven _ _) (by exact_mod_cast hnear) k).1

/-- **What a grid gives**: a neighbour of the double that reads back, and no other point of the grid that does is
nearer. -/
structure GridChoice (x : Finite) (e : Int) (d : Decimal) : Prop where
  exponent : d.exponent = e
  neighbour : d.digits = x.steps e ∨ d.digits = x.steps e + 1
  reads : x.readsBack d = true
  nearest : ∀ k : Nat, x.readsBack ⟨k, e⟩ = true →
    |x.unsigned.value - d.value| ≤ |x.unsigned.value - k * 10 ^ e|

variable (hx : x.value ≠ 0) (hy : |x.value| < y.value)

include hx hy

/-- If a point of the grid that is not above the double reads back, the lower neighbour does. -/
theorem readsBack_below (hk : k ≤ x.steps e) (h : x.readsBack ⟨k, e⟩ = true) :
    x.readsBack ⟨x.steps e, e⟩ = true := by
  rw [readsBack_iff hx hy] at h ⊢
  refine h.between_le ?_ ?_
  · exact mul_le_mul_of_nonneg_right (Nat.cast_le.mpr hk) (ten_zpow_pos e).le
  · rw [Finite.value_unsigned]
    exact (x.steps_bounds e).1

/-- If a point of the grid that is above the double reads back, the upper neighbour does. -/
theorem readsBack_above (hk : x.steps e < k) (h : x.readsBack ⟨k, e⟩ = true) :
    x.readsBack ⟨x.steps e + 1, e⟩ = true := by
  rw [readsBack_iff hx hy] at h ⊢
  refine h.between_ge ?_ ?_
  · exact mul_le_mul_of_nonneg_right (Nat.cast_le.mpr hk) (ten_zpow_pos e).le
  · rw [Finite.value_unsigned]
    exact (x.steps_bounds e).2.le

/-- Of two neighbours that read back the nearer one is taken, and if one does not, nothing on its side does. -/
theorem gridChoice_of_onGrid (h : x.onGrid e = some d) : GridChoice x e d := by
  obtain ⟨hbelow, habove⟩ := x.steps_bounds e
  have hstep : ∀ {m n : Nat}, m ≤ n → (m : ℚ) * 10 ^ e ≤ n * 10 ^ e :=
    fun hmn => mul_le_mul_of_nonneg_right (Nat.cast_le.mpr hmn) (ten_zpow_pos e).le
  unfold Finite.onGrid at h
  dsimp only at h
  split at h
  · next hreads hreads' =>
    obtain ⟨r, hr, hneighbour, -, hnearest⟩ := nearest_step x e
    rw [hr] at h
    obtain rfl := Option.some.inj h
    refine ⟨rfl, hneighbour, ?_, fun k _ => hnearest k⟩
    rcases hneighbour with rfl | rfl
    · exact hreads
    · exact hreads'
  · next hreads hfails =>
    obtain rfl := Option.some.inj h
    refine ⟨rfl, .inl rfl, hreads, ?_⟩
    intro k hk
    have hle : k ≤ x.steps e := by
      by_contra hlt
      have hreads' := readsBack_above hx hy (not_le.mp hlt) hk
      exact absurd (hreads'.symm.trans hfails) (by decide)
    have hpoint := hstep hle
    show |x.unsigned.value - x.steps e * 10 ^ e| ≤ _
    rw [Finite.value_unsigned, abs_of_nonneg (sub_nonneg.mpr hbelow),
      abs_of_nonneg (sub_nonneg.mpr (hpoint.trans hbelow))]
    linarith
  · next hfails hreads =>
    obtain rfl := Option.some.inj h
    refine ⟨rfl, .inr rfl, hreads, ?_⟩
    intro k hk
    have hlt : x.steps e + 1 ≤ k := by
      by_contra hle
      have hreads' := readsBack_below hx hy (by omega) hk
      exact absurd (hreads'.symm.trans hfails) (by decide)
    have hpoint := hstep hlt
    show |x.unsigned.value - (x.steps e + 1 : Nat) * 10 ^ e| ≤ _
    rw [Finite.value_unsigned, abs_of_nonpos (sub_nonpos.mpr habove.le),
      abs_of_nonpos (sub_nonpos.mpr (habove.le.trans hpoint))]
    linarith
  · cases h

/-- **A grid gives something** if any point of it reads back. -/
theorem exists_onGrid (h : x.readsBack ⟨k, e⟩ = true) : ∃ d, x.onGrid e = some d := by
  have hneighbour : x.readsBack ⟨x.steps e, e⟩ = true ∨ x.readsBack ⟨x.steps e + 1, e⟩ = true := by
    rcases Nat.lt_or_ge (x.steps e) k with hlt | hle
    · exact .inr (readsBack_above hx hy hlt h)
    · exact .inl (readsBack_below hx hy hle h)
  unfold Finite.onGrid
  dsimp only
  split
  · exact ⟨_, rfl⟩
  · exact ⟨_, rfl⟩
  · exact ⟨_, rfl⟩
  · next hfails hfails' =>
    rcases hneighbour with hreads | hreads
    · exact absurd (hreads.symm.trans hfails) (by decide)
    · exact absurd (hreads.symm.trans hfails') (by decide)

end Grid

/-! ## The first grid -/

section Search

variable {x y : Finite} {k n : Nat} {v : ℚ}

/-- What is found first in a range. -/
theorem exists_of_findSome?_range {α : Type} {f : Nat → Option α} {found : α} {bound : Nat}
    (h : (List.range bound).findSome? f = some found) :
    ∃ n < bound, f n = some found ∧ ∀ m < n, f m = none := by
  induction bound with
  | zero => cases h
  | succ bound ih =>
    rw [List.range_succ, List.findSome?_append, Option.or_eq_some_iff] at h
    obtain hearlier | ⟨hnone, hlast⟩ := h
    · obtain ⟨n, hn, hfound, hfirst⟩ := ih hearlier
      exact ⟨n, Nat.lt_succ_of_lt hn, hfound, hfirst⟩
    · rw [List.findSome?_eq_none_iff] at hnone
      refine ⟨bound, Nat.lt_succ_self _, ?_, fun m hm => hnone m (List.mem_range.mpr hm)⟩
      simpa using hlast

/-- **Any quantity of so many digits** that goes to a positive double has a point of the grid of that many
digits beside it that goes there too and is as near: itself, or the power of ten at which the digits of the
double begin. -/
theorem exists_grid_point (hx : x.value ≠ 0) (h : RoundsTo v x.unsigned) (hv : HasDigits v (n + 1)) :
    ∃ k : Nat, RoundsTo (k * 10 ^ (x.leading - n)) x.unsigned ∧
      |x.unsigned.value - k * 10 ^ (x.leading - n)| ≤ |x.unsigned.value - v| := by
  obtain ⟨hlead, -⟩ := Finite.leading_bounds hx
  obtain ⟨s, e, hs, hvalue⟩ := hv
  rw [abs_of_pos (h.pos (Finite.unsigned_pos hx))] at hvalue
  rcases le_or_gt (10 ^ x.leading) v with habove | hbelow
  · -- the leading digit is not below that of the double, so the steps of the grid are fine enough
    have hcoarse : x.leading - n ≤ e := by
      have hs' : (s : ℚ) < 10 ^ ((n + 1 : Nat) : Int) := by
        rw [zpow_natCast]
        exact_mod_cast hs
      have hlt : (10 : ℚ) ^ x.leading < 10 ^ (((n + 1 : Nat) : Int) + e) := by
        rw [zpow_add₀ (by norm_num)]
        calc (10 : ℚ) ^ x.leading ≤ s * 10 ^ e := hvalue ▸ habove
          _ < 10 ^ ((n + 1 : Nat) : Int) * 10 ^ e := mul_lt_mul_of_pos_right hs' (ten_zpow_pos e)
      have hexp := lt_of_ten_zpow_lt hlt
      omega
    have hsame : ((s * tenPow (e - (x.leading - n)).toNat : Nat) : ℚ) * 10 ^ (x.leading - n) = v := by
      have hshift : e = ((e - (x.leading - n)).toNat : Int) + (x.leading - n) := by omega
      conv_rhs => rw [hvalue, hshift, zpow_add₀ (by norm_num), zpow_natCast]
      rw [Nat.cast_mul, cast_tenPow, mul_assoc]
    refine ⟨s * tenPow (e - (x.leading - n)).toNat, ?_, ?_⟩
    · rwa [hsame]
    · rw [hsame]
  · have hlead' : 10 ^ x.leading ≤ x.unsigned.value := by rwa [Finite.value_unsigned]
    refine ⟨tenPow n, ?_, ?_⟩
    · rw [tenPow_mul_step]
      exact h.between_le hbelow.le hlead'
    · rw [tenPow_mul_step, abs_of_nonneg (by linarith), abs_of_nonneg (by linarith)]
      linarith

variable (hx : x.value ≠ 0) (hy : |x.value| < y.value)

include hx hy

/-- **Seventeen digits suffice**: the steps are finer than doubles are apart. -/
theorem exists_seventeen : ∃ d, x.onGrid (x.leading - 16) = some d := by
  obtain ⟨hlead, -⟩ := Finite.leading_bounds hx
  obtain ⟨r, -, -, hnear, -⟩ := nearest_step x (x.leading - 16)
  have hpow := ten_zpow_pos (x.leading - 16)
  have hsteps := tenPow_mul_step 16 x.leading
  rw [cast_tenPow, Nat.cast_ofNat] at hsteps
  refine exists_onGrid hx hy (k := r) ((readsBack_iff hx hy).mpr (roundsTo_of_near (Finite.unsigned_pos hx) ?_))
  rw [abs_sub_comm, Decimal.value, Finite.value_unsigned]
  rw [Finite.value_unsigned] at hnear
  linarith

/-- **What is chosen** is given by the first grid that gives anything, one of the seventeen. -/
theorem shortest_spec :
    ∃ n : Nat, x.onGrid (x.leading - n) = some x.shortest ∧
      ∀ m : Nat, m < n → x.onGrid (x.leading - m) = none := by
  have hsome : ∃ d, ((List.range 17).findSome? fun n : Nat => x.onGrid (x.leading - n)) = some d := by
    rw [← Option.isSome_iff_exists, List.findSome?_isSome_iff]
    obtain ⟨d, hd⟩ := exists_seventeen hx hy
    refine ⟨16, by decide, ?_⟩
    exact Option.isSome_iff_exists.mpr ⟨d, hd⟩
  obtain ⟨d, hd⟩ := hsome
  obtain ⟨n, -, hfound, hfirst⟩ := exists_of_findSome?_range hd
  have hchosen : x.shortest = d := by
    unfold Finite.leading at hd
    unfold Finite.shortest
    dsimp only
    rw [hd, Option.getD_some]
  exact ⟨n, hchosen ▸ hfound, hfirst⟩

/-- **What is chosen has the digits of its grid**: it is not below the power of ten at which the digits of the
double begin, and not above the next one. -/
theorem onGrid_bounds {d : Decimal} (h : x.onGrid (x.leading - n) = some d) :
    (10 : ℚ) ^ x.leading ≤ d.value ∧ d.value ≤ 10 ^ (x.leading + 1) := by
  obtain ⟨hexp, hdigits, -⟩ := gridChoice_of_onGrid hx hy h
  obtain ⟨hlead, hnext⟩ := Finite.leading_bounds hx
  obtain ⟨hbelow, habove⟩ := x.steps_bounds (x.leading - n)
  have hpow := ten_zpow_pos (x.leading - n)
  have hlow := tenPow_mul_step n x.leading
  have hhigh : (tenPow (n + 1) : ℚ) * 10 ^ (x.leading - n) = 10 ^ (x.leading + 1) := by
    have hshift : x.leading - n = x.leading + 1 - (n + 1 : Nat) := by omega
    rw [hshift, tenPow_mul_step]
  have hfirst : tenPow n ≤ x.steps (x.leading - n) := by
    have hlt : (tenPow n : ℚ) < (x.steps (x.leading - n) + 1 : Nat) := by
      rw [← mul_lt_mul_iff_left₀ hpow, hlow]
      exact hlead.trans_lt habove
    exact Nat.lt_succ_iff.mp (Nat.cast_lt.mp hlt)
  have hlast : x.steps (x.leading - n) < tenPow (n + 1) := by
    rw [← Nat.cast_lt (α := ℚ), ← mul_lt_mul_iff_left₀ hpow, hhigh]
    exact hbelow.trans_lt hnext
  have hfirst' : tenPow n ≤ d.digits := by omega
  have hlast' : d.digits ≤ tenPow (n + 1) := by omega
  rw [Decimal.value, hexp, ← hlow, ← hhigh]
  constructor
  · exact mul_le_mul_of_nonneg_right (Nat.cast_le.mpr hfirst') hpow.le
  · exact mul_le_mul_of_nonneg_right (Nat.cast_le.mpr hlast') hpow.le

end Search

/-! ## Shortest numerals -/

/-- **A shortest numeral** of a double: it is rounded to the double, nothing with fewer digits is, and nothing
with as few digits that is lies nearer. -/
structure IsShortest (x : Finite) (v : ℚ) : Prop where
  rounds : RoundsTo v x
  fewest : ∀ w k, RoundsTo w x → HasDigits w k → HasDigits v k
  closest : ∀ w, RoundsTo w x → (∀ k, HasDigits v k → HasDigits w k) → |x.value - v| ≤ |x.value - w|

/-- The opposite numeral is shortest for the opposite double. -/
theorem IsShortest.neg {x : Finite} {v : ℚ} (h : IsShortest x v) :
    IsShortest { x with negative := !x.negative } (-v) := by
  have hback : ∀ {w : ℚ}, RoundsTo w { x with negative := !x.negative } → RoundsTo (-w) x := by
    intro w hw
    have hopposite := hw.neg
    rwa [Bool.not_not] at hopposite
  have hdistance : ∀ w : ℚ, |-x.value - w| = |x.value - -w| := by
    intro w
    rw [← abs_neg]
    ring_nf
  constructor
  · exact h.rounds.neg
  · intro w k hw hk
    exact (h.fewest (-w) k (hback hw) hk.neg).neg
  · intro w hw hlonger
    rw [Finite.value_neg, hdistance, hdistance, neg_neg]
    exact h.closest (-w) (hback hw) fun k hk => (hlonger k hk.neg).neg

/-- A quantity with its sign is shortest for a double if its magnitude is shortest for that of the double. -/
theorem IsShortest.signed {x : Finite} {v : ℚ} (h : IsShortest x.unsigned v) :
    IsShortest x (if x.negative then -v else v) := by
  obtain ⟨negative, significand, exponent, hcanonical⟩ := x
  cases negative
  · exact h
  · exact h.neg

/-- **What is chosen is shortest** for the magnitude of the double. -/
theorem isShortest_shortest {x y : Finite} (hx : x.value ≠ 0) (hy : |x.value| < y.value) :
    IsShortest x.unsigned x.shortest.value := by
  obtain ⟨n, hfound, hfirst⟩ := shortest_spec hx hy
  obtain ⟨hexp, -, hreads, hnearest⟩ := gridChoice_of_onGrid hx hy hfound
  obtain ⟨hlow, hhigh⟩ := onGrid_bounds hx hy hfound
  have hdigits : HasDigits x.shortest.value (n + 1) := by
    have hpow := ten_zpow_pos x.leading
    rcases hhigh.lt_or_eq with hlt | heq
    · refine ⟨x.shortest.digits, x.shortest.exponent, ?_, abs_of_pos (hpow.trans_le hlow)⟩
      have hshift : x.leading + 1 - (n + 1 : Nat) = x.leading - n := by omega
      rw [Decimal.value, hexp, ← tenPow_mul_step (n + 1) (x.leading + 1), hshift,
        mul_lt_mul_iff_left₀ (ten_zpow_pos _)] at hlt
      exact Nat.cast_lt.mp hlt
    · -- the upper neighbour may be the next power of ten, which has one digit
      refine ⟨1, x.leading + 1, Nat.one_lt_pow (Nat.succ_ne_zero n) (by decide), ?_⟩
      rw [heq, abs_of_pos (ten_zpow_pos _), Nat.cast_one, one_mul]
  constructor
  · exact roundsTo_of_readsBack hx hreads
  · intro w k hw hk
    by_contra hshort
    -- a quantity with fewer digits would have been found on a grid before
    have hkn : k ≤ n := by
      by_contra hlt
      exact hshort (hdigits.mono (by omega))
    rcases Nat.eq_zero_or_pos k with rfl | hpos
    · obtain ⟨s, e, hs, hvalue⟩ := hk
      obtain rfl : s = 0 := by omega
      rw [Nat.cast_zero, zero_mul, abs_eq_zero] at hvalue
      exact (hw.pos (Finite.unsigned_pos hx)).ne' hvalue
    · obtain ⟨m, rfl⟩ : ∃ m, k = m + 1 := ⟨k - 1, by omega⟩
      obtain ⟨j, hj, -⟩ := exists_grid_point hx hw hk
      obtain ⟨d, hd⟩ := exists_onGrid hx hy ((readsBack_iff hx hy).mpr hj)
      rw [hfirst m hkn] at hd
      cases hd
  · intro w hw hlonger
    obtain ⟨k, hk, hnear⟩ := exists_grid_point hx hw (hlonger _ hdigits)
    exact (hnearest k ((readsBack_iff hx hy).mpr hk)).trans hnear

/-- A whole number that is at most a half away has no more digits. -/
theorem hasDigits_of_near {w : ℚ} {n : Int} {k : Nat} (hnear : |w - n| ≤ 1 / 2) (hw : HasDigits w k) :
    HasDigits n k := by
  obtain ⟨s, e, hs, hvalue⟩ := hw
  have habs : |(n : ℚ)| = n.natAbs := by rw [Nat.cast_natAbs, Int.cast_abs]
  have hmagnitude : |(s : ℚ) * 10 ^ e - n.natAbs| ≤ 1 / 2 := by
    rw [← habs, ← hvalue]
    exact (abs_abs_sub_abs_le w n).trans hnear
  rcases lt_or_ge e 0 with hneg | hpos
  · -- with a fraction, the quantity is too small for a whole number of more digits
    refine ⟨n.natAbs, 0, ?_, by rw [habs, zpow_zero, mul_one]⟩
    by_contra hlong
    have hn : (10 : ℚ) ^ k ≤ n.natAbs := by exact_mod_cast not_lt.mp hlong
    have hs' : (s : ℚ) < 10 ^ k := by exact_mod_cast hs
    have hone : (1 : ℚ) ≤ 10 ^ k := one_le_pow₀ (by norm_num)
    have hpow : (10 : ℚ) ^ e ≤ 10 ^ (-1 : Int) := zpow_le_zpow_right₀ (by norm_num) (by omega)
    have hsmall : (s : ℚ) * 10 ^ e ≤ s * 10 ^ (-1 : Int) := mul_le_mul_of_nonneg_left hpow (Nat.cast_nonneg s)
    have hgap := (abs_le.mp hmagnitude).1
    rw [zpow_neg_one] at hsmall
    linarith
  · -- without one, it is that number
    have hwhole : (s : ℚ) * 10 ^ e = (s * tenPow e.toNat : Nat) := by
      rw [Nat.cast_mul, cast_tenPow, ← zpow_natCast, Int.toNat_of_nonneg hpos]
    rw [hwhole] at hvalue hmagnitude
    have hsame : s * tenPow e.toNat = n.natAbs := by
      by_contra hne
      have hapart : (1 : ℚ) ≤ |((s * tenPow e.toNat : Nat) : ℚ) - n.natAbs| := by
        exact_mod_cast Int.one_le_abs (sub_ne_zero.mpr (Nat.cast_injective.ne hne))
      linarith
    exact ⟨s, e, hs, by rw [habs, hwhole, hsame]⟩

/-- **What goes to a whole double below `2 ^ 53`** is at most a half away, since its neighbours are doubles. -/
theorem near_whole {x : Finite} {n : Int} {w : ℚ} (hx : x.value = n) (hn : n.natAbs < twoPow 53)
    (hw : RoundsTo w x) : |w - n| ≤ 1 / 2 := by
  obtain ⟨after, hafter⟩ := exists_whole (n := n + 1) (by omega)
  obtain ⟨before, hbefore⟩ := exists_whole (n := n - 1) (by omega)
  have hup := hw.nearest after
  have hdown := hw.nearest before
  rw [hx, hafter, Int.cast_add, Int.cast_one] at hup
  rw [hx, hbefore, Int.cast_sub, Int.cast_one] at hdown
  apply abs_le.mpr
  constructor
  · by_contra hlow
    have hnearer : |w - (n - 1)| < n - w := abs_lt.mpr ⟨by linarith, by linarith⟩
    have hle : n - w ≤ |w - n| := by
      rw [abs_sub_comm]
      exact le_abs_self _
    linarith
  · by_contra hhigh
    have hnearer : |w - (n + 1)| < w - n := abs_lt.mpr ⟨by linarith, by linarith⟩
    have hle : w - n ≤ |w - n| := le_abs_self _
    linarith

/-- **A whole double below `2 ^ 53`** is its own shortest numeral. -/
theorem isShortest_whole {x : Finite} {n : Int} (hx : x.value = n) (hn : n.natAbs < twoPow 53) :
    IsShortest x n where
  rounds := hx ▸ roundsTo_value x
  fewest _ _ hw hk := hasDigits_of_near (near_whole hx hn hw) hk
  closest _ _ _ := by
    rw [hx, sub_self, abs_zero]
    exact abs_nonneg _

end Binary64

end DesignMarkup
