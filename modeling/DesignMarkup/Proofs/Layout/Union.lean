import DesignMarkup.Proofs.Layout.Compatible
import Mathlib.Data.List.Induction
import Mathlib.Data.List.Nodup

/-!
# `Proofs.Layout.Union` — merging as an ordered union

Merging adds one class after the other to a list that it has made so far, and asks each time whether the
class is in that list. What comes of it can be said without the list: each class that is not empty, once, in
the order in which the classes first occur in the groups laid end to end. There is only one such list, so
this says all there is to say about merging. Adding classes that were merged beforehand is the same as adding
them one by one, and so groups may be merged beforehand wherever they stand.

## Contents

* `OrderedUnion`, `OrderedUnion.unique`: **each class once, where it first occurs**;
* `ordered_foldl_addClass`, `orderedUnion_mergeClasses`: **the order of first occurrence**;
* `foldl_addClass_absorbs`, `mergeClasses_mergeClasses`: adding what is merged already;
* `mergeClasses_union`: **merging is the ordered union**, and parts may be merged beforehand.
-/

namespace DesignMarkup.Layout

/-- **The ordered union** of classes: no class twice, and not the empty one; all others, in the order in which
they first occur. -/
structure OrderedUnion (classes merged : List String) : Prop where
  nodup : merged.Nodup
  empty_not_mem : "" ∉ merged
  mem_iff : ∀ c, c ≠ "" → (c ∈ merged ↔ c ∈ classes)
  ordered : merged.Pairwise fun c d => classes.idxOf c < classes.idxOf d

section Union

variable {classes merged other : List String}

/-- There is only one ordered union: the members are given, and so is their order. -/
theorem OrderedUnion.unique (h : OrderedUnion classes merged) (h' : OrderedUnion classes other) :
    merged = other := by
  have hmem : ∀ c, c ∈ merged ↔ c ∈ other := by
    intro c
    by_cases hc : c = ""
    · subst hc
      simp [h.empty_not_mem, h'.empty_not_mem]
    · rw [h.mem_iff c hc, h'.mem_iff c hc]
  have hperm : merged.Perm other := (List.perm_ext_iff_of_nodup h.nodup h'.nodup).mpr hmem
  apply hperm.eq_of_pairwise _ h.ordered h'.ordered
  intro c d _ _ hcd hdc
  exact absurd hdc (Nat.lt_asymm hcd)

end Union

/-! ## One class after the other -/

theorem mem_mergeClasses_iff_flatten {groups : List (List String)} {c : String} (hc : c ≠ "") :
    c ∈ mergeClasses groups ↔ c ∈ groups.flatten := by
  simp [mem_mergeClasses, hc]

/-- **The order of first occurrence.** One more class changes no first occurrence, and if it is new, it is
behind all others. -/
theorem ordered_foldl_addClass (cs : List String) :
    (cs.foldl addClass []).Pairwise fun c d => cs.idxOf c < cs.idxOf d := by
  induction cs using List.reverseRecOn with
  | nil => exact List.Pairwise.nil
  | append_singleton cs last ih =>
    have hkept : ∀ c ∈ cs.foldl addClass [], c ∈ cs := by
      intro c hc
      simpa using (mem_foldl_addClass.mp hc).imp_right And.left
    have hbefore : (cs.foldl addClass []).Pairwise
        fun c d => (cs ++ [last]).idxOf c < (cs ++ [last]).idxOf d := by
      apply ih.imp_of_mem
      intro c d hc hd hlt
      rwa [List.idxOf_append_of_mem (hkept c hc), List.idxOf_append_of_mem (hkept d hd)]
    rw [List.foldl_concat]
    unfold addClass
    split
    · exact hbefore
    · next hnew =>
      obtain ⟨hempty, hnew⟩ := not_or.mp hnew
      have hlast : last ∉ cs := fun hm => hnew (mem_foldl_addClass.mpr (.inr ⟨hm, hempty⟩))
      apply List.pairwise_append.mpr
      refine ⟨hbefore, List.pairwise_singleton _ _, ?_⟩
      intro c hc d hd
      rw [List.mem_singleton.mp hd, List.idxOf_append_of_mem (hkept c hc),
        List.idxOf_append_of_notMem hlast]
      have hlt := List.idxOf_lt_length_of_mem (hkept c hc)
      omega

/-- **Merging makes the ordered union** of the groups laid end to end. -/
theorem orderedUnion_mergeClasses (groups : List (List String)) :
    OrderedUnion groups.flatten (mergeClasses groups) where
  nodup := nodup_mergeClasses groups
  empty_not_mem := by simp [mem_mergeClasses]
  mem_iff _ hc := mem_mergeClasses_iff_flatten hc
  ordered := ordered_foldl_addClass groups.flatten

/-! ## Parts that are merged beforehand -/

/-- Adding a list to which a class was added is adding the list and then the class. -/
theorem foldl_addClass_addClass (merged cs : List String) (c : String) :
    (addClass cs c).foldl addClass merged = addClass (cs.foldl addClass merged) c := by
  by_cases hskipped : c = "" ∨ c ∈ cs
  · have hlater : c = "" ∨ c ∈ cs.foldl addClass merged := by
      by_cases hc : c = ""
      · exact .inl hc
      · exact .inr (mem_foldl_addClass.mpr (.inr ⟨hskipped.resolve_left hc, hc⟩))
    rw [addClass, addClass, if_pos hskipped, if_pos hlater]
  · have hnew : addClass cs c = cs ++ [c] := if_neg hskipped
    rw [hnew, List.foldl_concat]

/-- **Adding classes that were merged beforehand** is adding them one by one. -/
theorem foldl_addClass_absorbs (merged front cs : List String) :
    (cs.foldl addClass front).foldl addClass merged =
      cs.foldl addClass (front.foldl addClass merged) := by
  induction cs generalizing front with
  | nil => rfl
  | cons c cs ih =>
    rw [List.foldl_cons, List.foldl_cons, ih, foldl_addClass_addClass]

/-- **Groups may be merged beforehand**, wherever they stand. -/
theorem mergeClasses_mergeClasses (before inner after : List (List String)) :
    mergeClasses (before ++ mergeClasses inner :: after) = mergeClasses (before ++ inner ++ after) := by
  have habsorbed : ∀ merged, (mergeClasses inner).foldl addClass merged =
      inner.flatten.foldl addClass merged := by
    intro merged
    exact foldl_addClass_absorbs merged [] inner.flatten
  unfold mergeClasses at habsorbed ⊢
  simp only [List.flatten_append, List.flatten_cons, List.foldl_append, habsorbed]

/-- **Merging is the ordered union.** What comes of it is the one list with each class that is not empty, once,
in the order in which the classes first occur in the groups laid end to end. It depends on nothing else, and
merging some of the groups beforehand changes nothing, so it is associative and idempotent. -/
theorem mergeClasses_union (groups : List (List String)) :
    (∀ merged, mergeClasses groups = merged ↔ OrderedUnion groups.flatten merged) ∧
      mergeClasses groups = mergeClasses [groups.flatten] ∧
      (∀ before inner after,
        mergeClasses (before ++ mergeClasses inner :: after) = mergeClasses (before ++ inner ++ after)) ∧
      ∀ a b c : List String,
        mergeClasses [mergeClasses [a, b], c] = mergeClasses [a, b, c] ∧
          mergeClasses [a, mergeClasses [b, c]] = mergeClasses [a, b, c] ∧
          mergeClasses [mergeClasses [a]] = mergeClasses [a] := by
  have hunion := orderedUnion_mergeClasses groups
  refine ⟨?_, ?_, mergeClasses_mergeClasses, ?_⟩
  · intro merged
    constructor
    · rintro rfl
      exact hunion
    · exact hunion.unique
  · unfold mergeClasses
    rw [List.flatten_singleton]
  · intro a b c
    exact ⟨mergeClasses_mergeClasses [] [a, b] [c], mergeClasses_mergeClasses [a] [b, c] [],
      mergeClasses_mergeClasses [] [a] []⟩

/-- A gap that two groups bring is kept where it first occurs. -/
example : mergeClasses [["frame-1", "d-flex", "gap-2"], ["", "p-3", "gap-2"]] =
    ["frame-1", "d-flex", "gap-2", "p-3"] := by
  decide +kernel

end DesignMarkup.Layout
