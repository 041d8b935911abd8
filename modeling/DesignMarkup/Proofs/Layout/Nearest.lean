import DesignMarkup.Layout.Classes
import DesignMarkup.Proofs.Number.Exact
import Mathlib.Algebra.Order.Group.Unbundled.Int

/-!
# `Proofs.Layout.Nearest` — the nearest step of the scale

The scale is searched from its lowest step upwards, and a step takes the place of the one found so far only
if it is nearer. So what is found at any time is the first of the nearest among the steps seen, and at the
end of the search it is the lowest of the nearest steps of the scale.

That the step grows with the length is no matter of the search. Of two steps the higher one is the nearer
only above the middle between them, and a shorter length for which it is lies below no longer one for which
it is not.

## Contents

* `IsNearest`: the nearest step, the lower one on a tie;
* `Found`, `Found.nearer`: **what is found is the first of the nearest**, from step to step;
* `nearestStep_isNearest`: the search; `IsNearest.le_of_le`: growth;
* `nearestScale_of_roundHalfUp`, `nearestScale_isNearest`: **the step of a length**;
* `nearestScale_of_not_isSet`, `nearestScale_of_sameMeasure`: measures that are missing, and equal ones.
-/

namespace DesignMarkup.Layout

/-- **The nearest step to a length**: the length of no step is nearer to it, and that of every lower one is
farther from it. -/
def IsNearest (pixels : Int) (step : Nat) : Prop :=
  ∃ length, (step, length) ∈ steps ∧ ∀ e ∈ steps,
    |pixels - length| ≤ |pixels - e.2| ∧ (e.1 < step → |pixels - length| < |pixels - e.2|)

/-- It is a step of the scale. -/
theorem IsNearest.mem {pixels : Int} {step : Nat} (h : IsNearest pixels step) :
    step ∈ steps.map Prod.fst := by
  obtain ⟨length, hmem, -⟩ := h
  exact List.mem_map.mpr ⟨_, hmem, rfl⟩

theorem distance_eq (a b : Int) : (distance a b : Int) = |a - b| :=
  Int.natCast_natAbs (a - b)

/-! ## The search -/

/-- What has been found, a step with its distance, is **the first of the nearest** among the steps seen. -/
structure Found (pixels : Int) (seen : List (Nat × Int)) (found : Nat × Nat) : Prop where
  mem : ∃ length, (found.1, length) ∈ seen ∧ distance pixels length = found.2
  le : ∀ e ∈ seen, found.2 ≤ distance pixels e.2
  lt : ∀ e ∈ seen, e.1 < found.1 → found.2 < distance pixels e.2

section Search

variable {pixels : Int} {seen rest : List (Nat × Int)} {found : Nat × Nat} {next : Nat × Int}

/-- **One more step**, which is not below those seen. -/
theorem Found.nearer (h : Found pixels seen found) (hnext : ∀ e ∈ seen, e.1 ≤ next.1) :
    Found pixels (seen ++ [next]) (nearer pixels found next) := by
  obtain ⟨length, hmem, hdistance⟩ := h.mem
  unfold Layout.nearer
  dsimp only
  split
  · next hcloser =>
    -- it is nearer than all seen, so all lower ones are farther
    refine ⟨⟨next.2, List.mem_append_right _ (List.mem_singleton_self _), rfl⟩, ?_, ?_⟩
    · exact List.forall_mem_append.mpr
        ⟨fun e he => hcloser.le.trans (h.le e he), List.forall_mem_singleton.mpr le_rfl⟩
    · exact List.forall_mem_append.mpr
        ⟨fun e he _ => hcloser.trans_le (h.le e he),
          List.forall_mem_singleton.mpr fun hlower => absurd hlower (lt_irrefl _)⟩
  · next hfarther =>
    -- it is not below the one found, which has been seen
    refine ⟨⟨length, List.mem_append_left _ hmem, hdistance⟩, ?_, ?_⟩
    · exact List.forall_mem_append.mpr ⟨h.le, List.forall_mem_singleton.mpr (not_lt.mp hfarther)⟩
    · exact List.forall_mem_append.mpr
        ⟨h.lt, List.forall_mem_singleton.mpr fun hlower => absurd hlower (not_lt.mpr (hnext _ hmem))⟩

/-- **All further steps**, from low to high. -/
theorem Found.foldl (h : Found pixels seen found)
    (hsorted : (seen ++ rest).Pairwise fun a b => a.1 ≤ b.1) :
    Found pixels (seen ++ rest) (rest.foldl (Layout.nearer pixels) found) := by
  induction rest generalizing seen found with
  | nil =>
    rw [List.append_nil]
    exact h
  | cons next rest ih =>
    have hnext : ∀ e ∈ seen, e.1 ≤ next.1 := fun e he =>
      (List.pairwise_append.mp hsorted).2.2 e he next List.mem_cons_self
    rw [List.append_cons] at hsorted ⊢
    exact ih (h.nearer hnext) hsorted

end Search

/-- **The search finds the nearest step.** -/
theorem nearestStep_isNearest (pixels : Int) : IsNearest pixels (nearestStep pixels) := by
  -- the search sets out from the lowest step, as if it had been seen before
  have hfirst : Found pixels [(0, 0)] (0, distance pixels 0) := by
    refine ⟨⟨0, List.mem_singleton_self _, rfl⟩, ?_, ?_⟩
    · exact fun e he => by rw [List.mem_singleton.mp he]
    · exact fun e _ hlower => absurd hlower (Nat.not_lt_zero _)
  have hall : Found pixels ([(0, 0)] ++ steps) (steps.foldl (Layout.nearer pixels) (0, distance pixels 0)) :=
    hfirst.foldl (by decide)
  obtain ⟨length, hmem, hdistance⟩ := hall.mem
  have hsteps : (nearestStep pixels, length) ∈ steps := by
    rcases List.mem_append.mp hmem with hmem | hmem
    · have hlowest : (nearestStep pixels, length) = (0, 0) := List.mem_singleton.mp hmem
      rw [hlowest]
      exact List.mem_cons_self
    · exact hmem
  refine ⟨length, hsteps, fun e he => ?_⟩
  have he' : e ∈ [(0, 0)] ++ steps := List.mem_append_right _ he
  rw [← distance_eq, ← distance_eq, Int.ofNat_le, Int.ofNat_lt, hdistance]
  exact ⟨hall.le e he', hall.lt e he'⟩

/-! ## Growth -/

/-- A higher step is the longer one. -/
theorem steps_increasing : ∀ a ∈ steps, ∀ b ∈ steps, a.1 < b.1 → a.2 < b.2 := by
  decide

/-- **The nearest step grows with the length.** -/
theorem IsNearest.le_of_le {p q : Int} {i j : Nat} (hi : IsNearest p i) (hj : IsNearest q j)
    (h : p ≤ q) : i ≤ j := by
  by_contra hlt
  obtain ⟨a, ha, hnearp⟩ := hi
  obtain ⟨b, hb, hnearq⟩ := hj
  have hba : b < a := steps_increasing _ hb _ ha (not_le.mp hlt)
  -- the shorter length lies above the middle of the two steps, and the longer one not
  have hp : |p - a| < |p - b| := (hnearp _ hb).2 (not_le.mp hlt)
  have hq : |q - b| ≤ |q - a| := (hnearq _ ha).1
  rw [Int.abs_eq_natAbs, Int.abs_eq_natAbs] at hp hq
  omega

/-! ## The step of a length -/

/-- The step of a length that is not zero is that of the length in whole pixels. -/
theorem nearestScale_of_roundHalfUp {n : Number} {pixels : Int} (hzero : n.isZero = false)
    (hround : n.roundHalfUp = .ok pixels) : nearestScale (some n) = .ok (nearestStep pixels) := by
  rw [nearestScale, hzero, hround]
  rfl

/-- **The step of a length is the nearest one**, the lower one on a tie, and it grows with the length in whole
pixels. -/
theorem nearestScale_isNearest (n : Number) (pixels : Int) (hzero : n.isZero = false)
    (hround : n.roundHalfUp = .ok pixels) :
    ∃ step, nearestScale (some n) = .ok step ∧ IsNearest pixels step ∧
      ∀ (n' : Number) (pixels' : Int) (step' : Nat), n'.isZero = false → n'.roundHalfUp = .ok pixels' →
        nearestScale (some n') = .ok step' → pixels ≤ pixels' → step ≤ step' := by
  refine ⟨_, nearestScale_of_roundHalfUp hzero hround, nearestStep_isNearest pixels, ?_⟩
  intro n' pixels' step' hzero' hround' hstep' hle
  obtain rfl := Except.ok.inj ((nearestScale_of_roundHalfUp hzero' hround').symm.trans hstep')
  exact (nearestStep_isNearest pixels).le_of_le (nearestStep_isNearest pixels') hle

/-- A length of 19.5 pixels counts as 20, which lie in the middle of the last two steps. -/
theorem half_nearestScale_isNearest :
    (Number.double (.round false 39 2)).isZero = false ∧
    (Number.double (.round false 39 2)).roundHalfUp = .ok 20 ∧
    ∃ step, nearestScale (some (.double (.round false 39 2))) = .ok step ∧ IsNearest 20 step ∧
      ∀ (n' : Number) (pixels' : Int) (step' : Nat), n'.isZero = false → n'.roundHalfUp = .ok pixels' →
        nearestScale (some n') = .ok step' → 20 ≤ pixels' → step ≤ step' := by
  have hzero : (Number.double (.round false 39 2)).isZero = false := by decide
  have hround : (Number.double (.round false 39 2)).roundHalfUp = .ok 20 := rfl
  exact ⟨hzero, hround, nearestScale_isNearest _ 20 hzero hround⟩

/-! ## The steps of measures -/

/-- A measure that is missing or zero has step zero. -/
theorem nearestScale_of_not_isSet {measure : Option Number} (h : isSet measure = false) :
    nearestScale measure = .ok 0 := by
  cases measure with
  | none => rfl
  | some n =>
    have hzero : n.isZero = true := by simpa [isSet] using h
    rw [nearestScale, if_pos hzero]

/-- What is found for a measure is a step of the scale. -/
theorem mem_steps_of_nearestScale {measure : Option Number} {step : Nat}
    (h : nearestScale measure = .ok step) : step ∈ steps.map Prod.fst := by
  have hzero : 0 ∈ steps.map Prod.fst := by decide
  unfold nearestScale at h
  split at h
  · exact Except.ok.inj h ▸ hzero
  · split at h
    · exact Except.ok.inj h ▸ hzero
    · obtain ⟨pixels, -, hstep⟩ := bind_eq_ok.mp h
      rw [← pure_eq_ok.mp hstep]
      exact (nearestStep_isNearest pixels).mem

/-- **Equal measures have the same step.** -/
theorem nearestScale_of_sameMeasure {a b : Option Number} (h : sameMeasure a b = true) :
    nearestScale a = nearestScale b := by
  cases a with
  | none =>
    cases b with
    | none => rfl
    | some b => cases h
  | some a =>
    cases b with
    | none => cases h
    | some b =>
      obtain ⟨ha, hb⟩ | ⟨ha, hb, hdouble⟩ := Number.equals_cases (show a.equals b = true from h)
      · rw [nearestScale, nearestScale, if_pos ha, if_pos hb]
      · rw [nearestScale, nearestScale, ha, hb, Number.roundHalfUp, Number.roundHalfUp, hdouble]

end DesignMarkup.Layout
