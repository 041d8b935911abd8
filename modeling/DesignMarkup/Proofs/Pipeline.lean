import DesignMarkup.Design.Reader
import DesignMarkup.Proofs.Conversion.Failure

/-!
# `Proofs.Pipeline` — reading and converting

A design is checked once, when it is read. That would be enough if every design that can be read could be
converted. It is not so: reading accepts every number, and a conversion fails at numbers that it cannot
round, which are those that are not finite and whole numbers for which there is no double.

## Contents

* `Safe`: data that is refused or converted, but does not fail half-way;
* `safe_iff`: **the data for which that holds**;
* `hugePadding`: data for which it does not.
-/

namespace DesignMarkup

/-- **Data is safe** if it is refused when it is read, or else the design that is read is converted. -/
def Safe (options : Options) (v : Json) (c : Context) : Prop :=
  (∃ e, Node.read v = .error e) ∨
    ∃ n, Node.read v = .ok n ∧ SucceedsFrom (convert options (some n)) c

theorem safe_of_error {options : Options} {v : Json} {c : Context} {e : DataError}
    (h : Node.read v = .error e) : Safe options v c :=
  Or.inl ⟨e, h⟩

/-- Data that is not refused is safe exactly if the design is converted. -/
theorem safe_iff_of_ok {options : Options} {v : Json} {c : Context} {n : Node}
    (h : Node.read v = .ok n) : Safe options v c ↔ SucceedsFrom (convert options (some n)) c := by
  constructor
  · rintro (⟨e, he⟩ | ⟨m, hm, hc⟩)
    · rw [h] at he
      cases he
    · obtain rfl := Except.ok.inj (hm.symm.trans h)
      exact hc
  · intro hc
    exact Or.inr ⟨n, h, hc⟩

instance (options : Options) (v : Json) (c : Context) : Decidable (Safe options v c) :=
  match h : Node.read v with
  | .error _ => isTrue (safe_of_error h)
  | .ok _ => decidable_of_iff _ (safe_iff_of_ok h).symm

/-- **Which data is safe.** If a design is read, lines must be writable at the depth of its root; and of
every layer that is shown and is no text, the colours that are painted, the padding and the gap must be
bounded. -/
theorem safe_iff (options : Options) (v : Json) (c : Context) :
    Safe options v c ↔ ∀ n, Node.read v = .ok n →
      (Html.minDepth ≤ options.rootDepth ∧ options.rootDepth < Html.hugeDepth) ∧
        ∀ l ∈ n.shown options, l.kind ≠ .text → l.Bounded := by
  cases hread : Node.read v with
  | error e =>
    refine iff_of_true (safe_of_error hread) ?_
    intro n hn
    cases hn
  | ok n =>
    rw [safe_iff_of_ok hread, convert_succeeds_iff]
    constructor
    · intro h m hm
      obtain rfl := Except.ok.inj hm
      exact h
    · intro h
      exact h n rfl

/-- A frame with more padding on its left than the greatest double. -/
def hugePadding : Json :=
  .object [("type", .string "FRAME"), ("name", .string "Card"),
    ("paddingLeft", .number (.int (Binary64.tenPow 400)))]

/-- It is read, but cannot be converted. -/
theorem not_safe_hugePadding : ¬Safe {} hugePadding .fresh := by
  decide +kernel

end DesignMarkup
