import DesignMarkup.Number
import DesignMarkup.Proofs.ClassName
import DesignMarkup.Proofs.Number.Shortest
import Mathlib.Data.List.TakeWhile

/-!
# `Proofs.Number.Plain` — numbers in plain decimal notation

A whole number is written with its digits, and any other double with its shortest numeral, which is laid out
with a point while its leading digit stands between the fourth place after the point and the sixteenth before
it. A double that is not whole is below `2 ^ 52`, so the upper end of that range is never reached. The lower
end is: a numeral below `10 ^ -4` is written with an exponent. The numeral that is chosen for a double below
`10 ^ -4` is below it too, for the double that is nearest to `10 ^ -4` lies above.

## Contents

* `PlainNumeral`, `PlainNumeral.text_injective`: **plain notation**, and that a text is read in one way only;
* `PlainNumeral.ofInt`: whole numbers;
* `Significant`, `layout_plain`, `mem_layout_e`: **how a numeral is laid out**;
* `whole?_eq_some_iff`, `exists_plain`, `mem_cssText_e`: how a double is written;
* `PlainNumeral.Shows`, `Number.cssText_plain_iff`: **the numbers in plain notation**.
-/

namespace DesignMarkup

open Binary64

/-! ## Plain notation -/

/-- **Digits around a point**: at least one before it, of which the first is no zero unless it stands alone, and
no zero at the end of those after it. -/
structure IsPlain (whole fraction : List Char) : Prop where
  digits : ∀ c ∈ whole ++ fraction, c.isDigit = true
  nonempty : whole ≠ []
  leading : whole.head? = some '0' → whole = ['0']
  trailing : fraction.getLast? ≠ some '0'

/-- What digits around a point denote. -/
def pointValue (whole fraction : List Char) : ℚ :=
  Nat.ofDigitChars 10 (whole ++ fraction) 0 / 10 ^ fraction.length

/-- **A numeral in plain decimal notation**: no exponent, and no sign before a zero. -/
structure PlainNumeral where
  negative : Bool
  whole : List Char
  fraction : List Char
  plain : IsPlain whole fraction
  nonzero : negative = true → pointValue whole fraction ≠ 0

namespace PlainNumeral

/-- The digits after the point, with the point; no point without digits. -/
def pointed (fraction : List Char) : List Char :=
  if fraction = [] then [] else '.' :: fraction

/-- How the numeral is written. -/
def text (p : PlainNumeral) : List Char :=
  (if p.negative then ['-'] else []) ++ (p.whole ++ pointed p.fraction)

/-- What the numeral denotes. -/
def value (p : PlainNumeral) : ℚ :=
  if p.negative then -pointValue p.whole p.fraction else pointValue p.whole p.fraction

section Reading

variable {whole fraction : List Char}

/-- The digits end at the point. -/
theorem takeWhile_pointed (fraction : List Char) : (pointed fraction).takeWhile Char.isDigit = [] := by
  unfold pointed
  split
  · rfl
  · rfl

theorem takeWhile_digits (h : IsPlain whole fraction) :
    (whole ++ pointed fraction).takeWhile Char.isDigit = whole := by
  have hwhole : ∀ c ∈ whole, c.isDigit = true := fun c hc => h.digits c (List.mem_append_left _ hc)
  rw [List.takeWhile_append_of_pos hwhole, takeWhile_pointed, List.append_nil]

theorem head?_digits_ne (h : IsPlain whole fraction) : (whole ++ pointed fraction).head? ≠ some '-' := by
  obtain ⟨c, rest, rfl⟩ := List.exists_cons_of_ne_nil h.nonempty
  intro hsign
  obtain rfl : c = '-' := by simpa using hsign
  exact absurd (h.digits '-' List.mem_cons_self) (by decide)

theorem pointed_injective {fraction other : List Char} (h : pointed fraction = pointed other) :
    fraction = other := by
  unfold pointed at h
  split at h
  · next hnone =>
    split at h
    · next hnone' => rw [hnone, hnone']
    · cases h
  · split at h
    · cases h
    · exact (List.cons.inj h).2

/-- The sign is the first character. -/
theorem negative_iff (p : PlainNumeral) : p.negative = true ↔ p.text.head? = some '-' := by
  unfold text
  cases p.negative
  · exact iff_of_false Bool.false_ne_true (head?_digits_ne p.plain)
  · exact iff_of_true rfl rfl

/-- **A text is read in one way only.** -/
theorem text_injective {p q : PlainNumeral} (h : p.text = q.text) : p = q := by
  have hsign : p.negative = q.negative := by
    rw [Bool.eq_iff_iff, negative_iff, negative_iff, h]
  have hbody : p.whole ++ pointed p.fraction = q.whole ++ pointed q.fraction := by
    unfold text at h
    rw [hsign] at h
    exact List.append_cancel_left h
  have hwhole : p.whole = q.whole := by
    have htaken := congrArg (List.takeWhile Char.isDigit) hbody
    rwa [takeWhile_digits p.plain, takeWhile_digits q.plain] at htaken
  rw [hwhole] at hbody
  have hfraction := pointed_injective (List.append_cancel_left hbody)
  obtain ⟨negative, whole, fraction, hplain, hnonzero⟩ := p
  obtain ⟨negative', whole', fraction', hplain', hnonzero'⟩ := q
  obtain rfl : negative = negative' := hsign
  obtain rfl : whole = whole' := hwhole
  obtain rfl : fraction = fraction' := hfraction
  rfl

/-- There is no exponent in plain notation. -/
theorem e_not_mem_text (p : PlainNumeral) : 'e' ∉ p.text := by
  intro hmem
  have hdigit : 'e' ∉ p.whole ++ p.fraction := fun hc => absurd (p.plain.digits 'e' hc) (by decide)
  obtain ⟨hwhole, hfraction⟩ := not_or.mp fun hc => hdigit (List.mem_append.mpr hc)
  unfold text pointed at hmem
  rcases List.mem_append.mp hmem with hsign | hbody
  · split at hsign
    · exact absurd hsign (by decide)
    · exact absurd hsign List.not_mem_nil
  · rcases List.mem_append.mp hbody with hc | hc
    · exact hwhole hc
    · split at hc
      · exact absurd hc List.not_mem_nil
      · rcases List.mem_cons.mp hc with hpoint | hc
        · exact absurd hpoint (by decide)
        · exact hfraction hc

end Reading

end PlainNumeral

/-! ## Whole numbers -/

/-- The digits of a positive whole number begin with no zero. -/
theorem toDigits_head?_ne {n : Nat} (hn : 0 < n) : (Nat.toDigits 10 n).head? ≠ some '0' := by
  induction n using Nat.strongRecOn with
  | ind n ih =>
    rw [Nat.toDigits_eq_if (by decide)]
    split
    · intro hzero
      have hdigit : n.digitChar = '0' := by simpa using hzero
      exact hn.ne' (Nat.digitChar_eq_zero.mp hdigit)
    · next hlarge =>
      have hshorter : (Nat.toDigits 10 (n / 10)).head? ≠ some '0' := ih (n / 10) (by omega) (by omega)
      obtain ⟨c, rest, hdigits⟩ := List.exists_cons_of_ne_nil (Nat.toDigits_ne_nil (b := 10) (n := n / 10))
      rw [hdigits] at hshorter ⊢
      exact hshorter

theorem isPlain_toDigits (n : Nat) : IsPlain (Nat.toDigits 10 n) [] where
  digits c hc := by
    rw [List.append_nil] at hc
    exact Nat.isDigit_of_mem_toDigits (by decide) (by decide) hc
  nonempty := Nat.toDigits_ne_nil
  leading hzero := by
    rcases Nat.eq_zero_or_pos n with rfl | hn
    · rfl
    · exact absurd hzero (toDigits_head?_ne hn)
  trailing := by simp

theorem pointValue_toDigits (n : Nat) : pointValue (Nat.toDigits 10 n) [] = n := by
  rw [pointValue, List.append_nil, Nat.ofDigitChars_ten_toDigits, List.length_nil, pow_zero, div_one]

/-- The numeral of a whole number. -/
def PlainNumeral.ofInt (n : Int) : PlainNumeral where
  negative := decide (n < 0)
  whole := Nat.toDigits 10 n.natAbs
  fraction := []
  plain := isPlain_toDigits n.natAbs
  nonzero h := by
    have hn : n < 0 := of_decide_eq_true h
    rw [pointValue_toDigits]
    exact Nat.cast_ne_zero.mpr (by omega)

@[simp] theorem PlainNumeral.value_ofInt (n : Int) : (PlainNumeral.ofInt n).value = n := by
  have hvalue := pointValue_toDigits n.natAbs
  rw [Nat.cast_natAbs, Int.cast_abs] at hvalue
  by_cases hneg : n < 0
  · have hsign : (ofInt n).negative = true := decide_eq_true hneg
    rw [value, if_pos hsign]
    show -pointValue (Nat.toDigits 10 n.natAbs) [] = n
    rw [hvalue, abs_of_neg (Int.cast_lt_zero.mpr hneg), neg_neg]
  · have hsign : (ofInt n).negative ≠ true := fun h => hneg (of_decide_eq_true h)
    rw [value, if_neg hsign]
    show pointValue (Nat.toDigits 10 n.natAbs) [] = n
    rw [hvalue, abs_of_nonneg (Int.cast_nonneg (not_lt.mp hneg))]

/-- **A whole number is written in plain notation.** -/
theorem PlainNumeral.text_ofInt (n : Int) : (PlainNumeral.ofInt n).text = (toString n).toList := by
  cases n with
  | ofNat m =>
    have hdigits : (toString (Int.ofNat m)).toList = Nat.toDigits 10 m := toList_toString m
    rw [hdigits]
    simp [ofInt, text, pointed]
  | negSucc m =>
    have hdigits : (toString (Int.negSucc m)).toList = '-' :: Nat.toDigits 10 (m + 1) := by
      have happend : toString (Int.negSucc m) = "-" ++ toString (m + 1) := rfl
      rw [happend, String.toList_append, toList_toString]
      rfl
    rw [hdigits]
    simp [ofInt, text, pointed]

/-! ## How a numeral is laid out -/

/-- **The significant digits** of a positive whole number, and the number of zeros after them. -/
structure Significant (n : Nat) (ds : List Char) (zeros : Nat) : Prop where
  written : Nat.toDigits 10 n = ds ++ List.replicate zeros '0'
  digits : ∀ c ∈ ds, c.isDigit = true
  nonempty : ds ≠ []
  first : ds.head? ≠ some '0'
  last : ds.getLast? ≠ some '0'

/-- The zeros at the end come off. -/
theorem trimZeros_append (ds : List Char) :
    ∃ zeros, ds = Decimal.trimZeros ds ++ List.replicate zeros '0' := by
  have hzeros : ∀ c ∈ ds.reverse.takeWhile (· == '0'), c = '0' :=
    fun c hc => beq_iff_eq.mp (List.mem_takeWhile_imp (p := (· == '0')) hc)
  refine ⟨(ds.reverse.takeWhile (· == '0')).length, ?_⟩
  have hsplit := congrArg List.reverse (List.takeWhile_append_dropWhile (p := (· == '0')) (l := ds.reverse))
  rw [List.reverse_append, List.reverse_reverse, List.eq_replicate_of_mem hzeros, List.reverse_replicate]
    at hsplit
  exact hsplit.symm

/-- All of them do. -/
theorem trimZeros_getLast?_ne (ds : List Char) : (Decimal.trimZeros ds).getLast? ≠ some '0' := by
  rw [Decimal.trimZeros, List.getLast?_reverse]
  intro hzero
  have hnot := List.head?_dropWhile_not (· == '0') ds.reverse
  rw [hzero] at hnot
  exact absurd hnot (by decide)

/-- **A positive whole number has significant digits**, and they are what is left of its digits. -/
theorem exists_significant {n : Nat} (hn : 0 < n) :
    ∃ zeros, Significant n (Decimal.trimZeros (Nat.toDigits 10 n)) zeros := by
  obtain ⟨zeros, hsplit⟩ := trimZeros_append (Nat.toDigits 10 n)
  have hfirst := toDigits_head?_ne hn
  have hdigits : ∀ c ∈ Nat.toDigits 10 n, c.isDigit = true :=
    fun c hc => Nat.isDigit_of_mem_toDigits (by decide) (by decide) hc
  have hnonempty : Decimal.trimZeros (Nat.toDigits 10 n) ≠ [] := by
    intro hnone
    rw [hnone, List.nil_append] at hsplit
    rw [hsplit] at hfirst
    cases zeros with
    | zero => exact Nat.toDigits_ne_nil hsplit
    | succ zeros => exact hfirst rfl
  refine ⟨zeros, hsplit, ?_, hnonempty, ?_, trimZeros_getLast?_ne _⟩
  · intro c hc
    apply hdigits
    rw [hsplit]
    exact List.mem_append_left _ hc
  · intro hzero
    apply hfirst
    rw [hsplit, List.head?_append, hzero]
    rfl

section Layout

variable {d : Decimal} {ds : List Char} {zeros : Nat}

/-- The exponent of the leading digit, as it is computed. -/
theorem length_sub_one_add (d : Decimal) :
    ((Nat.toDigits 10 d.digits).length : Int) - 1 + d.exponent = d.top - 1 := by
  unfold Decimal.top
  omega

/-- The first power of ten above a numeral, in terms of its significant digits. -/
theorem Significant.top_eq (h : Significant d.digits ds zeros) :
    d.top = (ds.length : Int) + zeros + d.exponent := by
  unfold Decimal.top
  rw [h.written, List.length_append, List.length_replicate]
  push_cast
  rfl

/-- The value of a numeral, from its significant digits. -/
theorem Significant.value_eq (h : Significant d.digits ds zeros) :
    d.value = Nat.ofDigitChars 10 ds 0 * 10 ^ (zeros + d.exponent : Int) := by
  have hdigits : d.digits = 10 ^ zeros * Nat.ofDigitChars 10 ds 0 := by
    rw [← Nat.ofDigitChars_replicate_zero, ← Nat.ofDigitChars_append, ← h.written,
      Nat.ofDigitChars_ten_toDigits]
  rw [Decimal.value, hdigits, zpow_add₀ (by norm_num), zpow_natCast]
  push_cast
  ring

/-- With a point among the digits or before them, they denote the value. -/
theorem Significant.pointValue_eq (h : Significant d.digits ds zeros) {whole fraction : List Char}
    (hdigits : Nat.ofDigitChars 10 (whole ++ fraction) 0 = Nat.ofDigitChars 10 ds 0)
    (hplaces : (fraction.length : Int) = -(zeros + d.exponent)) : pointValue whole fraction = d.value := by
  rw [h.value_eq, pointValue, hdigits, ← neg_neg (zeros + d.exponent : Int), ← hplaces, zpow_neg,
    zpow_natCast, div_eq_mul_inv]

/-- A zero before the point and zeros after it. -/
theorem Significant.isPlain_below (h : Significant d.digits ds zeros) (k : Nat) :
    IsPlain ['0'] (List.replicate k '0' ++ ds) where
  digits c hc := by
    rcases List.mem_append.mp hc with hzero | hc
    · rw [List.mem_singleton.mp hzero]
      decide
    · rcases List.mem_append.mp hc with hzero | hc
      · rw [List.eq_of_mem_replicate hzero]
        decide
      · exact h.digits c hc
  nonempty := List.cons_ne_nil _ _
  leading _ := rfl
  trailing := by
    obtain ⟨c, hc⟩ := Option.ne_none_iff_exists'.mp (mt List.getLast?_eq_none_iff.mp h.nonempty)
    have hlast := h.last
    rw [hc] at hlast
    rwa [List.getLast?_append, hc]

/-- A point among the digits. -/
theorem Significant.isPlain_among (h : Significant d.digits ds zeros) {k : Nat} (hk : 0 < k) :
    IsPlain (ds.take k) (ds.drop k) where
  digits c hc := by
    rw [List.take_append_drop] at hc
    exact h.digits c hc
  nonempty := by
    rw [Ne, List.take_eq_nil_iff]
    exact not_or.mpr ⟨hk.ne', h.nonempty⟩
  leading hzero := by
    rw [List.head?_take, if_neg hk.ne'] at hzero
    exact absurd hzero h.first
  trailing := by
    rw [List.getLast?_drop]
    split
    · exact Option.some_ne_none _ |>.symm
    · exact h.last

/-- **A numeral is laid out in plain notation** if it has a fraction and its leading digit stands neither too far
before the point nor too far after it. -/
theorem layout_plain (hd : 0 < d.digits) (hlow : -3 ≤ d.top) (hhigh : d.top ≤ 16)
    (hfraction : ∀ n : Int, d.value ≠ n) :
    ∃ whole fraction, IsPlain whole fraction ∧ d.layout = whole ++ PlainNumeral.pointed fraction ∧
      pointValue whole fraction = d.value := by
  obtain ⟨zeros, h⟩ := exists_significant hd
  have htop := h.top_eq
  have hplaces : (zeros : Int) + d.exponent < 0 := by
    by_contra hnonneg
    -- otherwise the value is a whole number
    apply hfraction (Nat.ofDigitChars 10 (Decimal.trimZeros (Nat.toDigits 10 d.digits)) 0 *
      tenPow (zeros + d.exponent : Int).toNat : Nat)
    rw [h.value_eq, Int.cast_natCast, Nat.cast_mul, cast_tenPow, ← zpow_natCast,
      Int.toNat_of_nonneg (not_lt.mp hnonneg)]
  unfold Decimal.layout
  dsimp only
  rw [length_sub_one_add, if_pos (by omega)]
  generalize Decimal.trimZeros (Nat.toDigits 10 d.digits) = ds at h htop ⊢
  split
  · next hbelow =>
    refine ⟨['0'], List.replicate (-(d.top - 1) - 1).toNat '0' ++ ds, h.isPlain_below _, ?_, ?_⟩
    · rw [PlainNumeral.pointed, if_neg (List.append_ne_nil_of_right_ne_nil _ h.nonempty)]
      rfl
    · refine h.pointValue_eq ?_ ?_
      · have hzeros : Nat.ofDigitChars 10 (['0'] ++ List.replicate (-(d.top - 1) - 1).toNat '0') 0 = 0 := by
          rw [List.singleton_append, ← List.replicate_succ, Nat.ofDigitChars_replicate_zero, Nat.mul_zero]
        rw [← List.append_assoc, Nat.ofDigitChars_append, hzeros]
      · rw [List.length_append, List.length_replicate]
        omega
  · next habove =>
    rw [if_neg (by omega)]
    refine ⟨_, _, h.isPlain_among (Nat.succ_pos (d.top - 1).toNat), ?_, ?_⟩
    · rw [PlainNumeral.pointed, if_neg]
      rw [List.drop_eq_nil_iff]
      omega
    · refine h.pointValue_eq ?_ ?_
      · rw [List.take_append_drop]
      · rw [List.length_drop]
        omega

/-- **A numeral is laid out with an exponent** if its leading digit stands too far from the point. -/
theorem mem_layout_e (hd : 0 < d.digits) (h : d.top < -3 ∨ 16 < d.top) : 'e' ∈ d.layout := by
  obtain ⟨zeros, hsig⟩ := exists_significant hd
  unfold Decimal.layout
  dsimp only
  rw [length_sub_one_add, if_neg (by omega)]
  generalize Decimal.trimZeros (Nat.toDigits 10 d.digits) = ds at hsig ⊢
  split
  · exact absurd rfl hsig.nonempty
  · exact List.mem_cons_of_mem _ List.mem_cons_self
  · exact List.mem_append_right _ List.mem_cons_self

end Layout

/-! ## How a double is written -/

/-- The test for a whole number. -/
theorem whole?_eq_some_iff {x : Finite} {n : Int} : (Binary64.finite x).whole? = some n ↔ x.value = n := by
  have hden : (x.den : Int) ≠ 0 := Int.natCast_ne_zero.mpr x.den_pos.ne'
  have hvalue : x.value = n ↔ x.num = n * x.den := by
    rw [Finite.value, div_eq_iff x.cast_den_pos.ne']
    exact_mod_cast Iff.rfl
  rw [hvalue, whole?]
  split
  · next hrest =>
    constructor
    · intro hfloor
      obtain rfl := Option.some.inj hfloor
      exact (Int.ediv_mul_cancel_of_emod_eq_zero hrest).symm
    · intro hnum
      rw [Finite.floor, hnum, Int.mul_ediv_cancel _ hden]
  · next hrest =>
    refine iff_of_false (Option.some_ne_none n).symm ?_
    intro hnum
    rw [hnum] at hrest
    exact hrest (Int.mul_emod_left n x.den)

section Fraction

variable {x : Finite} (hfraction : ∀ n : Int, x.value ≠ n)

include hfraction

theorem value_ne_zero_of_fraction : x.value ≠ 0 := by
  have hzero := hfraction 0
  rwa [Int.cast_zero] at hzero

/-- There are doubles above one that is not whole. -/
theorem exists_above_fraction : ∃ y : Finite, y.value = 2 ^ 53 ∧ |x.value| < y.value := by
  have hlt : |x.value| < 2 ^ 52 := by
    by_contra hlarge
    obtain ⟨n, hn⟩ := Finite.exists_int_of_large (not_lt.mp hlarge)
    exact hfraction n hn
  obtain ⟨y, hy⟩ := exists_whole (n := (twoPow 53 : Nat)) le_rfl
  rw [Int.cast_natCast, cast_twoPow] at hy
  refine ⟨y, hy, ?_⟩
  rw [hy]
  linarith

/-- **A double that is not whole is written by its shortest numeral.** -/
theorem cssText_fraction : (Number.double (.finite x)).cssText.toList =
    (if x.negative then ['-'] else []) ++ x.shortest.layout := by
  have hwhole : (Binary64.finite x).whole? = none := by
    apply Option.eq_none_iff_forall_ne_some.mpr
    intro n hn
    exact hfraction n (whole?_eq_some_iff.mp hn)
  have hsig : x.significand ≠ 0 := (Finite.significand_pos (value_ne_zero_of_fraction hfraction)).ne'
  rw [Number.cssText, hwhole, Binary64.text]
  dsimp only
  rw [String.toList_ofList, if_neg hsig]
  cases x.negative <;> rfl

theorem isShortest_fraction : IsShortest x.unsigned x.shortest.value := by
  obtain ⟨y, -, hy⟩ := exists_above_fraction hfraction
  exact isShortest_shortest (value_ne_zero_of_fraction hfraction) hy

/-- The numeral is between the powers of ten on either side of the double. -/
theorem shortest_bounds : (10 : ℚ) ^ x.leading ≤ x.shortest.value ∧
    x.shortest.value ≤ 10 ^ (x.leading + 1) := by
  have hx := value_ne_zero_of_fraction hfraction
  obtain ⟨y, -, hy⟩ := exists_above_fraction hfraction
  obtain ⟨n, hfound, -⟩ := shortest_spec hx hy
  exact onGrid_bounds hx hy hfound

theorem shortest_pos : 0 < x.shortest.value :=
  (ten_zpow_pos _).trans_le (shortest_bounds hfraction).1

theorem shortest_digits_pos : 0 < x.shortest.digits := by
  have hpos := shortest_pos hfraction
  by_contra hzero
  rw [Decimal.value, Nat.eq_zero_of_not_pos hzero, Nat.cast_zero, zero_mul] at hpos
  exact hpos.false

/-- It is below `2 ^ 53`, -/
theorem shortest_lt : x.shortest.value < 2 ^ 53 := by
  obtain ⟨y, hvalue, hy⟩ := exists_above_fraction hfraction
  by_contra hlarge
  have hcrossed := (isShortest_fraction hfraction).rounds.ge (y := y) (by linarith)
  rw [Finite.value_unsigned] at hcrossed
  linarith

/-- and it is not whole either, since whole numbers of that size are doubles. -/
theorem shortest_fraction (n : Int) : x.shortest.value ≠ n := by
  intro hn
  have hpos := shortest_pos hfraction
  have hlt := shortest_lt hfraction
  have hbits : n.natAbs ≤ twoPow 53 := by
    rw [cast_natAbs_le, ← hn, abs_of_pos hpos, cast_twoPow]
    exact hlt.le
  obtain ⟨z, hz⟩ := exists_whole hbits
  have hexact := (isShortest_fraction hfraction).rounds.exact (hz.trans hn.symm)
  rw [Finite.value_unsigned, hn] at hexact
  rcases abs_eq_abs.mp (hexact.trans (abs_of_pos (hn ▸ hpos)).symm) with hsame | hopposite
  · exact hfraction n hsame
  · exact hfraction (-n) (by rw [hopposite, Int.cast_neg])

/-- **From `10 ^ -4` on, a double that is not whole is written in plain notation**, by a shortest numeral. -/
theorem exists_plain (hmin : 10 ^ (-4 : Int) ≤ |x.value|) :
    ∃ p : PlainNumeral, p.text = (Number.double (.finite x)).cssText.toList ∧ IsShortest x p.value := by
  obtain ⟨-, hlead⟩ := Finite.leading_bounds (value_ne_zero_of_fraction hfraction)
  obtain ⟨hbelow, habove⟩ := decimal_value_bounds (shortest_digits_pos hfraction)
  have hlow : -3 ≤ x.shortest.top := by
    have hx := lt_of_ten_zpow_lt (hmin.trans_lt hlead)
    have hd := lt_of_ten_zpow_lt ((shortest_bounds hfraction).1.trans_lt habove)
    omega
  have hhigh : x.shortest.top ≤ 16 := by
    have hlt : (10 : ℚ) ^ (x.shortest.top - 1) < 10 ^ (16 : Int) := by
      calc (10 : ℚ) ^ (x.shortest.top - 1) ≤ x.shortest.value := hbelow
        _ < 2 ^ 53 := shortest_lt hfraction
        _ < 10 ^ (16 : Int) := by norm_num
    have hexp := lt_of_ten_zpow_lt hlt
    omega
  obtain ⟨whole, fraction, hplain, hlayout, hvalue⟩ :=
    layout_plain (shortest_digits_pos hfraction) hlow hhigh (shortest_fraction hfraction)
  have hpos := shortest_pos hfraction
  refine ⟨⟨x.negative, whole, fraction, hplain, fun _ => hvalue ▸ hpos.ne'⟩, ?_, ?_⟩
  · rw [cssText_fraction hfraction, hlayout]
    rfl
  · have hshortest := (isShortest_fraction hfraction).signed
    rw [← hvalue] at hshortest
    exact hshortest

end Fraction

/-- The double nearest to `10 ^ -4`, which is above it. -/
def tenThousandth : Finite :=
  ⟨false, 0x1a36e2eb1c432d, -66, by decide⟩

theorem lt_tenThousandth : 10 ^ (-4 : Int) < tenThousandth.value := by
  norm_num [Finite.value_eq, tenThousandth, signed]

/-- If a single digit one reads back, its power of ten goes to the double. -/
theorem roundsTo_of_readsBack_one {x : Finite} {e : Int} (hx : 0 < x.value)
    (h : x.readsBack ⟨1, e⟩ = true) : RoundsTo (10 ^ e) x.unsigned := by
  have hrounds := roundsTo_of_readsBack hx.ne' h
  rwa [Decimal.value, Nat.cast_one, one_mul] at hrounds

theorem roundsTo_tenThousandth : RoundsTo (10 ^ (-4 : Int)) tenThousandth :=
  roundsTo_of_readsBack_one ((ten_zpow_pos _).trans lt_tenThousandth) (by decide +kernel)

/-- **Below `10 ^ -4` a double that is not whole is written with an exponent.** -/
theorem mem_cssText_e {x : Finite} (hfraction : ∀ n : Int, x.value ≠ n)
    (hsmall : |x.value| < 10 ^ (-4 : Int)) : 'e' ∈ (Number.double (.finite x)).cssText.toList := by
  obtain ⟨hlead, -⟩ := Finite.leading_bounds (value_ne_zero_of_fraction hfraction)
  obtain ⟨hbelow, -⟩ := decimal_value_bounds (shortest_digits_pos hfraction)
  have hne : x.shortest.value ≠ 10 ^ (-4 : Int) := by
    intro heq
    have hrounds := (isShortest_fraction hfraction).rounds
    rw [heq] at hrounds
    have hsame := hrounds.unique roundsTo_tenThousandth
    have habove := lt_tenThousandth
    rw [Finite.value_unsigned] at hsame
    linarith
  have hlt : x.shortest.value < 10 ^ (-4 : Int) := by
    apply lt_of_le_of_ne _ hne
    have hexp := lt_of_ten_zpow_lt (hlead.trans_lt hsmall)
    exact (shortest_bounds hfraction).2.trans (zpow_le_zpow_right₀ (by norm_num) (by omega))
  have htop := lt_of_ten_zpow_lt (hbelow.trans_lt hlt)
  rw [cssText_fraction hfraction]
  exact List.mem_append_right _ (mem_layout_e (shortest_digits_pos hfraction) (.inl (by omega)))

/-! ## Numbers in plain notation -/

/-- **A numeral shows a double**: it is rounded to the double, it denotes a whole double exactly, and if the double
is not a whole number of more than 53 bits, it is a shortest one. -/
structure PlainNumeral.Shows (p : PlainNumeral) (x : Finite) : Prop where
  rounds : RoundsTo p.value x
  exact : ∀ n : Int, x.value = n → p.value = n
  shortest : (∀ n : Int, x.value = n → n.natAbs < twoPow 53) → IsShortest x p.value

/-- The numeral of a whole number shows a whole double. -/
theorem shows_whole {x : Finite} {n : Int} (hx : x.value = n) : (PlainNumeral.ofInt n).Shows x where
  rounds := by
    rw [PlainNumeral.value_ofInt, ← hx]
    exact roundsTo_value x
  exact m hm := by
    rw [PlainNumeral.value_ofInt, ← hx, hm]
  shortest hbits := by
    rw [PlainNumeral.value_ofInt]
    exact isShortest_whole hx (hbits n hx)

/-- A whole double is written as the whole number. -/
theorem cssText_whole {x : Finite} {n : Int} (hx : x.value = n) :
    (Number.double (.finite x)).cssText.toList = (PlainNumeral.ofInt n).text := by
  rw [PlainNumeral.text_ofInt, Number.cssText, whole?_eq_some_iff.mpr hx]

/-- A double that is whole, or not below `10 ^ -4`, is shown in plain notation. -/
theorem exists_shows {x : Finite} (h : (∃ n : Int, x.value = n) ∨ 10 ^ (-4 : Int) ≤ |x.value|) :
    ∃ p : PlainNumeral, p.text = (Number.double (.finite x)).cssText.toList ∧ p.Shows x := by
  by_cases hwhole : ∃ n : Int, x.value = n
  · obtain ⟨n, hn⟩ := hwhole
    exact ⟨PlainNumeral.ofInt n, (cssText_whole hn).symm, shows_whole hn⟩
  · have hfraction : ∀ n : Int, x.value ≠ n := fun n hn => hwhole ⟨n, hn⟩
    obtain ⟨p, htext, hshortest⟩ := exists_plain hfraction (h.resolve_left hwhole)
    exact ⟨p, htext, hshortest.rounds, fun n hn => absurd hn (hfraction n), fun _ => hshortest⟩

/-- A double in plain notation is whole, or not below `10 ^ -4`. -/
theorem of_plain {x : Finite} {p : PlainNumeral} (h : p.text = (Number.double (.finite x)).cssText.toList) :
    (∃ n : Int, x.value = n) ∨ 10 ^ (-4 : Int) ≤ |x.value| := by
  by_contra hneither
  obtain ⟨hwhole, hsmall⟩ := not_or.mp hneither
  have hmem := mem_cssText_e (fun n hn => hwhole ⟨n, hn⟩) (not_le.mp hsmall)
  rw [← h] at hmem
  exact p.e_not_mem_text hmem

namespace Number

/-- **The numbers in plain notation** are the doubles that are whole or not below `10 ^ -4`, and all whole
numbers. What is written is read in one way only, and it shows the double, or denotes the whole number. -/
theorem cssText_plain_iff (x : Finite) (n : Int) :
    ((∃! p : PlainNumeral, p.text = (double (.finite x)).cssText.toList ∧ p.Shows x) ↔
      (∃ m : Int, x.value = m) ∨ 10 ^ (-4 : Int) ≤ |x.value|) ∧
    ((∃ p : PlainNumeral, p.text = (double (.finite x)).cssText.toList) ↔
      (∃ m : Int, x.value = m) ∨ 10 ^ (-4 : Int) ≤ |x.value|) ∧
    ∃! p : PlainNumeral, p.text = (int n).cssText.toList ∧ p.value = n := by
  refine ⟨⟨?_, ?_⟩, ⟨?_, ?_⟩, ?_⟩
  · rintro ⟨p, ⟨htext, -⟩, -⟩
    exact of_plain htext
  · intro h
    obtain ⟨p, htext, hshows⟩ := exists_shows h
    refine ⟨p, ⟨htext, hshows⟩, ?_⟩
    intro q hq
    exact PlainNumeral.text_injective (hq.1.trans htext.symm)
  · rintro ⟨p, htext⟩
    exact of_plain htext
  · intro h
    obtain ⟨p, htext, -⟩ := exists_shows h
    exact ⟨p, htext⟩
  · have htext : (PlainNumeral.ofInt n).text = (int n).cssText.toList := PlainNumeral.text_ofInt n
    refine ⟨PlainNumeral.ofInt n, ⟨htext, PlainNumeral.value_ofInt n⟩, ?_⟩
    intro q hq
    exact PlainNumeral.text_injective (hq.1.trans htext.symm)

/-- The double nearest to `10 ^ -5`. -/
def hundredThousandth : Finite :=
  ⟨false, 0x14f8b588e368f1, -69, by decide⟩

/-- **A hundred thousandth is written with an exponent**, though it is not below a millionth: no plain numeral has
its text. -/
theorem hundredThousandth_not_plain :
    RoundsTo (10 ^ (-5 : Int)) hundredThousandth ∧
      10 ^ (-6 : Int) ≤ |hundredThousandth.value| ∧ |hundredThousandth.value| < 10 ^ (21 : Int) ∧
      (double (.finite hundredThousandth)).cssText = "1e-05" ∧
      ∀ p : PlainNumeral, p.text ≠ (double (.finite hundredThousandth)).cssText.toList := by
  have hvalue : hundredThousandth.value = 0x14f8b588e368f1 * 2 ^ (-69 : Int) := Finite.value_eq _
  have hpos : 0 < hundredThousandth.value := by
    rw [hvalue]
    norm_num
  have htext : (double (.finite hundredThousandth)).cssText = "1e-05" := by decide +kernel
  refine ⟨roundsTo_of_readsBack_one hpos (by decide +kernel), ?_, ?_, htext, ?_⟩
  · rw [abs_of_pos hpos, hvalue]
    norm_num
  · rw [abs_of_pos hpos, hvalue]
    norm_num
  · intro p hp
    apply p.e_not_mem_text
    rw [hp, htext]
    decide

end Number

end DesignMarkup
