import DesignMarkup.Proofs.ClassName
import DesignMarkup.Proofs.Outcome

/-!
# `Proofs.Layout.Words` — the utility classes of a node

Besides the class that is minted for it, a node has utility classes of the page's style framework: some
that are written out, and some of a scale, a stem with a step. All of them are words, and none of them can
be taken for a minted class, since the stems of a scale are no stems of classes and what is written out
does not end in a number.

## Contents

* `mem_mergeClasses`, `mergeClasses_map`: merging keeps every class but the empty one, and commutes with
  renaming;
* `IsUtility`: utility classes; `IsUtility.isWord`, `IsUtility.ne_numberedName`: **what they are not**;
* `spacingClasses_utility`, `flexClasses_utility`: the classes of distances and of the flow;
* `Layer.roleClasses_cases`: **the classes of a node in its role**; `Layer.roleClasses_words`,
  `Layer.roleClasses_map`: what they are, and what becomes of them under another minted class.
-/

namespace DesignMarkup

namespace Layout

/-! ## Merging -/

theorem mem_addClass {merged : List String} {c d : String} :
    d ∈ addClass merged c ↔ d ∈ merged ∨ (d = c ∧ d ≠ "") := by
  unfold addClass
  split
  · next h =>
    constructor
    · exact Or.inl
    · rintro (hd | ⟨rfl, hd⟩)
      · exact hd
      · exact h.resolve_left hd
  · next h =>
    rw [List.mem_append, List.mem_singleton]
    constructor
    · exact Or.imp_right fun hd => ⟨hd, fun he => h (Or.inl (hd ▸ he))⟩
    · exact Or.imp_right And.left

theorem mem_foldl_addClass {cs : List String} {d : String} :
    ∀ {merged : List String}, d ∈ cs.foldl addClass merged ↔ d ∈ merged ∨ (d ∈ cs ∧ d ≠ "") := by
  induction cs with
  | nil => intro merged; simp
  | cons c cs ih =>
    intro merged
    rw [List.foldl_cons, ih, mem_addClass, List.mem_cons, or_assoc, ← or_and_right]

/-- **Merging keeps every class** but the empty one, and adds none. -/
theorem mem_mergeClasses {groups : List (List String)} {d : String} :
    d ∈ mergeClasses groups ↔ (∃ g ∈ groups, d ∈ g) ∧ d ≠ "" := by
  rw [mergeClasses, mem_foldl_addClass, List.mem_flatten]
  simp

section Renaming

variable {f : String → String} {all : List String}

theorem addClass_subset {merged : List String} {c : String} (hmerged : merged ⊆ all) (hc : c ∈ all) :
    addClass merged c ⊆ all := by
  intro d hd
  obtain hd | ⟨rfl, -⟩ := mem_addClass.mp hd
  · exact hmerged hd
  · exact hc

theorem foldl_addClass_map (hinj : ∀ c ∈ all, ∀ d ∈ all, f c = f d → c = d)
    (hempty : ∀ c ∈ all, f c = "" ↔ c = "") {cs : List String} :
    ∀ {merged : List String}, merged ⊆ all → cs ⊆ all →
      (cs.map f).foldl addClass (merged.map f) = (cs.foldl addClass merged).map f := by
  induction cs with
  | nil => exact fun _ _ => rfl
  | cons c cs ih =>
    intro merged hmerged hcs
    obtain ⟨hc, hcs⟩ := List.cons_subset.mp hcs
    have hmem : f c ∈ merged.map f ↔ c ∈ merged := by
      rw [List.mem_map]
      constructor
      · rintro ⟨d, hd, he⟩
        exact hinj d (hmerged hd) c hc he ▸ hd
      · exact fun h => ⟨c, h, rfl⟩
    have hadd : addClass (merged.map f) (f c) = (addClass merged c).map f := by
      have hskipped : (f c = "" ∨ f c ∈ merged.map f) ↔ (c = "" ∨ c ∈ merged) :=
        or_congr (hempty c hc) hmem
      unfold addClass
      split
      · next h => rw [if_pos (hskipped.mp h)]
      · next h => rw [if_neg fun h' => h (hskipped.mpr h'), List.map_append, List.map_singleton]
    rw [List.map_cons, List.foldl_cons, List.foldl_cons, hadd, ih (addClass_subset hmerged hc) hcs]

/-- **Merging commutes with renaming** if different classes stay different and none becomes empty. -/
theorem mergeClasses_map {cs : List String} (hinj : ∀ c ∈ cs, ∀ d ∈ cs, f c = f d → c = d)
    (hempty : ∀ c ∈ cs, f c = "" ↔ c = "") :
    mergeClasses [cs.map f] = (mergeClasses [cs]).map f := by
  rw [mergeClasses, mergeClasses, List.flatten_singleton, List.flatten_singleton]
  exact foldl_addClass_map hinj hempty (List.nil_subset _) (List.Subset.refl cs)

end Renaming

/-! ## Utility classes -/

/-- The classes that are written out. -/
def fixedClasses : List String :=
  ["btn", "btn-primary", "img-fluid", "d-flex", "flex-row", "flex-column"] ++
    justifyClasses.map Prod.snd ++ alignClasses.map Prod.snd

/-- The stems of the classes of a scale. -/
def scaleStems : List String :=
  ["gap", "p", "px", "py", "ps", "pe", "pt", "pb"]

/-- **A utility class** is written out, or it is a class of a scale. -/
def IsUtility (c : String) : Prop :=
  c ∈ fixedClasses ∨ ∃ stem ∈ scaleStems, ∃ step, c = scaleClass stem step

theorem isUtility_of_fixed {c : String} (h : c ∈ fixedClasses) : IsUtility c :=
  .inl h

theorem isUtility_scaleClass {stem : String} (h : stem ∈ scaleStems) (step : Nat) :
    IsUtility (scaleClass stem step) :=
  .inr ⟨stem, h, step, rfl⟩

/-- Utility classes are words. -/
theorem IsUtility.isWord {c : String} (h : IsUtility c) : IsWord c := by
  obtain hfixed | ⟨stem, hstem, step, rfl⟩ := h
  · have hwords : ∀ c ∈ fixedClasses, IsWord c := by decide
    exact hwords c hfixed
  · have hwords : ∀ stem ∈ scaleStems, IsWord stem := by decide
    exact isWord_numberedName (hwords stem hstem) step

/-- **No utility class can be taken for a minted one.** -/
theorem IsUtility.ne_numberedName {c : String} (h : IsUtility c) (r : Role) (k : Kind) (i : Nat) :
    c ≠ numberedName (r.stem k) i := by
  rintro rfl
  obtain hfixed | ⟨stem, hstem, step, he⟩ := h
  · -- what is written out does not end in a digit
    have hends : ∀ c ∈ fixedClasses, c.toList.getLast?.map Char.isDigit ≠ some true := by decide
    obtain ⟨d, hlast, hdigit⟩ := getLast?_numberedName (r.stem k) i
    exact hends _ hfixed (Option.map_eq_some_iff.mpr ⟨d, hlast, hdigit⟩)
  · have hstems : r.stem k ∉ scaleStems := by cases r <;> cases k <;> decide
    rw [(numberedName_inj.mp he).1] at hstems
    exact hstems hstem

/-- The class of a step, which is left out at step zero. -/
theorem stepClass_utility {stem : String} (hs : stem ∈ scaleStems) (step : Nat) :
    ∀ c ∈ (if step = 0 then [] else [scaleClass stem step]), IsUtility c := by
  split
  · exact List.forall_mem_nil _
  · exact List.forall_mem_singleton.mpr (isUtility_scaleClass hs step)

theorem gapClasses_utility {l : Layer} {cs : List String} (h : gapClasses l = .ok cs) :
    ∀ c ∈ cs, IsUtility c := by
  unfold gapClasses at h
  split at h
  · obtain ⟨gap, -, h⟩ := bind_eq_ok.mp h
    rw [← pure_eq_ok.mp h]
    exact stepClass_utility (by decide) gap
  · rw [← Except.ok.inj h]
    exact List.forall_mem_nil _

theorem sideClasses_utility {stem : String} (hs : stem ∈ scaleStems) {n : Option Number} {cs : List String}
    (h : sideClasses stem n = .ok cs) : ∀ c ∈ cs, IsUtility c := by
  unfold sideClasses at h
  split at h
  · obtain ⟨step, -, h⟩ := bind_eq_ok.mp h
    rw [← pure_eq_ok.mp h]
    exact List.forall_mem_singleton.mpr (isUtility_scaleClass hs step)
  · rw [← Except.ok.inj h]
    exact List.forall_mem_nil _

theorem symmetricClasses_utility {h v : Option Number} {cs : List String}
    (hcs : symmetricClasses h v = .ok cs) : ∀ c ∈ cs, IsUtility c := by
  unfold symmetricClasses at hcs
  obtain ⟨hor, -, hcs⟩ := bind_eq_ok.mp hcs
  obtain ⟨ver, -, hcs⟩ := bind_eq_ok.mp hcs
  split at hcs
  · rw [← pure_eq_ok.mp hcs]
    exact List.forall_mem_singleton.mpr (isUtility_scaleClass (by decide) hor)
  · rw [← pure_eq_ok.mp hcs]
    exact List.forall_mem_append.mpr
      ⟨stepClass_utility (by decide) hor, stepClass_utility (by decide) ver⟩

theorem paddingClasses_utility {p : Padding} {cs : List String} (h : paddingClasses p = .ok cs) :
    ∀ c ∈ cs, IsUtility c := by
  unfold paddingClasses at h
  split at h
  · rw [← Except.ok.inj h]
    exact List.forall_mem_nil _
  · split at h
    · exact symmetricClasses_utility h
    · obtain ⟨left, hl, h⟩ := bind_eq_ok.mp h
      obtain ⟨right, hr, h⟩ := bind_eq_ok.mp h
      obtain ⟨top, ht, h⟩ := bind_eq_ok.mp h
      obtain ⟨bottom, hb, h⟩ := bind_eq_ok.mp h
      rw [← pure_eq_ok.mp h]
      simp only [List.forall_mem_append]
      exact ⟨⟨⟨sideClasses_utility (by decide) hl, sideClasses_utility (by decide) hr⟩,
        sideClasses_utility (by decide) ht⟩, sideClasses_utility (by decide) hb⟩

/-- **The classes of distances** are utility classes. -/
theorem spacingClasses_utility {l : Layer} {cs : List String} (h : spacingClasses l = .ok cs) :
    ∀ c ∈ cs, IsUtility c := by
  obtain ⟨padding, hp, h⟩ := bind_eq_ok.mp h
  obtain ⟨gap, hg, h⟩ := bind_eq_ok.mp h
  rw [← pure_eq_ok.mp h]
  exact List.forall_mem_append.mpr ⟨paddingClasses_utility hp, gapClasses_utility hg⟩

theorem get?_mem {table : List (String × String)} {name c : String}
    (h : Entries.get? name table = some c) : (name, c) ∈ table := by
  induction table with
  | nil => cases h
  | cons e rest ih =>
    obtain ⟨other, value⟩ := e
    unfold Entries.get? at h
    split at h
    · next he => rw [he, Option.some.inj h]; exact List.mem_cons_self
    · exact List.mem_cons_of_mem _ (ih h)

/-- The class of a placement is one of its table. -/
theorem placementClasses_utility {table : List (String × String)}
    (ht : ∀ e ∈ table, e.2 ∈ fixedClasses) (placement : Option String) : ∀ c ∈ placementClasses table placement, IsUtility c := by
  intro c hc
  rw [placementClasses, Option.mem_toList] at hc
  obtain ⟨name, -, hn⟩ := Option.bind_eq_some_iff.mp hc
  exact isUtility_of_fixed (ht _ (get?_mem hn))

theorem directionClasses_utility (mode : String) : ∀ c ∈ directionClasses mode, IsUtility c := by
  have hfixed : ∀ c ∈ directionClasses mode, c ∈ fixedClasses := by
    unfold directionClasses
    split
    · decide
    · split <;> decide
  exact fun c hc => isUtility_of_fixed (hfixed c hc)

/-- **The classes of the flow** are utility classes. -/
theorem flexClasses_utility {l : Layer} {cs : List String} (h : flexClasses l = .ok cs) :
    ∀ c ∈ cs, IsUtility c := by
  unfold flexClasses at h
  split at h
  · rw [← Except.ok.inj h]
    exact List.forall_mem_nil _
  · next mode _ =>
    obtain ⟨gap, hg, h⟩ := bind_eq_ok.mp h
    rw [← pure_eq_ok.mp h]
    simp only [List.forall_mem_append, List.forall_mem_cons]
    exact ⟨⟨⟨⟨isUtility_of_fixed (by decide), directionClasses_utility mode⟩, placementClasses_utility (by decide) _⟩,
      placementClasses_utility (by decide) _⟩, gapClasses_utility hg⟩

end Layout

/-! ## The classes of a node -/

open Layout

/-- **The classes of a node in its role**: the one minted for it is merged with utility classes, which are
the same whatever the minted one is. -/
theorem Layer.roleClasses_cases {l : Layer} {r : Role} {own : String} {cs : List String}
    (h : l.roleClasses r own = .ok cs) :
    ∃ before after, (∀ c ∈ before ++ after, IsUtility c) ∧
      ∀ other, other ≠ "" → l.roleClasses r other = .ok (mergeClasses [before ++ other :: after]) := by
  cases r with
  | text =>
    -- a text has its class only, which merging leaves alone
    refine ⟨[], [], List.forall_mem_nil _, fun other hother => ?_⟩
    rw [Layer.roleClasses, mergeClasses, List.flatten_singleton, List.nil_append, List.foldl_cons,
      List.foldl_nil, addClass, if_neg (by simpa using hother), List.nil_append]
  | container =>
    obtain ⟨spacing, hs, h⟩ := bind_eq_ok.mp h
    obtain ⟨flex, hf, h⟩ := bind_eq_ok.mp h
    refine ⟨[], spacing ++ flex, ?_, fun other _ => ?_⟩
    · rw [List.nil_append]
      exact List.forall_mem_append.mpr ⟨spacingClasses_utility hs, flexClasses_utility hf⟩
    · rw [Layer.roleClasses, hs, ok_bind, hf, ok_bind]
      simp only [mergeClasses, List.flatten_cons, List.flatten_nil, List.append_nil]
      rfl
  | button =>
    obtain ⟨spacing, hs, h⟩ := bind_eq_ok.mp h
    refine ⟨["btn", "btn-primary"], spacing, ?_, fun other _ => ?_⟩
    · have hfixed : ∀ c ∈ ["btn", "btn-primary"], c ∈ fixedClasses := by decide
      exact List.forall_mem_append.mpr
        ⟨fun c hc => isUtility_of_fixed (hfixed c hc), spacingClasses_utility hs⟩
    · rw [Layer.roleClasses, hs, ok_bind]
      simp only [mergeClasses, List.flatten_cons, List.flatten_nil, List.append_nil]
      rfl
  | image =>
    obtain ⟨spacing, hs, h⟩ := bind_eq_ok.mp h
    refine ⟨[], "img-fluid" :: spacing, ?_, fun other _ => ?_⟩
    · exact List.forall_mem_cons.mpr ⟨isUtility_of_fixed (by decide), spacingClasses_utility hs⟩
    · rw [Layer.roleClasses, hs, ok_bind]
      simp only [mergeClasses, List.flatten_cons, List.flatten_nil, List.append_nil]
      rfl
  | plain =>
    obtain ⟨spacing, hs, h⟩ := bind_eq_ok.mp h
    refine ⟨[], spacing, spacingClasses_utility hs, fun other _ => ?_⟩
    rw [Layer.roleClasses, hs, ok_bind]
    simp only [mergeClasses, List.flatten_cons, List.flatten_nil, List.append_nil]
    rfl

/-- **The classes of a node are words**, and the class minted for it is one of them. -/
theorem Layer.roleClasses_words {l : Layer} {r : Role} {own : String} {cs : List String}
    (hown : IsWord own) (h : l.roleClasses r own = .ok cs) :
    own ∈ cs ∧ ∀ c ∈ cs, IsWord c := by
  obtain ⟨before, after, hutility, hmerged⟩ := Layer.roleClasses_cases h
  obtain rfl := Except.ok.inj (h.symm.trans (hmerged own hown.1))
  refine ⟨mem_mergeClasses.mpr ⟨⟨_, List.mem_singleton_self _, by simp⟩, hown.1⟩, fun c hc => ?_⟩
  obtain ⟨⟨g, hg, hcg⟩, -⟩ := mem_mergeClasses.mp hc
  obtain rfl := List.mem_singleton.mp hg
  rcases List.mem_append.mp hcg with hbefore | hafter
  · exact (hutility c (List.mem_append_left _ hbefore)).isWord
  · rcases List.mem_cons.mp hafter with rfl | hafter
    · exact hown
    · exact (hutility c (List.mem_append_right _ hafter)).isWord

/-- **Renaming the minted class** of a node renames it among the classes of the node, if utility classes are
left alone and the new name is none of them. -/
theorem Layer.roleClasses_map {l : Layer} {r : Role} {own : String} {cs : List String}
    {f : String → String} (h : l.roleClasses r own = .ok cs) (hown : own ≠ "")
    (hutility : ∀ c, IsUtility c → f c = c) (hnew : f own ≠ "") (hother : ¬IsUtility (f own)) :
    l.roleClasses r (f own) = .ok (cs.map f) := by
  obtain ⟨before, after, hall, hmerged⟩ := Layer.roleClasses_cases h
  obtain rfl := Except.ok.inj (h.symm.trans (hmerged own hown))
  -- the new name takes the place of the old one, and the others stay
  have hfixed : ∀ c ∈ before ++ after, f c = c := fun c hc => hutility c (hall c hc)
  have hmap : before ++ f own :: after = (before ++ own :: after).map f := by
    obtain ⟨hbefore, hafter⟩ := List.forall_mem_append.mp hfixed
    rw [List.map_append, List.map_cons, List.map_congr_left hbefore, List.map_congr_left hafter,
      List.map_id', List.map_id']
  have hcases : ∀ c ∈ before ++ own :: after, c = own ∨ (IsUtility c ∧ f c = c) := by
    intro c hc
    rcases List.mem_append.mp hc with hc | hc
    · have hc' := List.mem_append_left after hc
      exact .inr ⟨hall c hc', hfixed c hc'⟩
    · rcases List.mem_cons.mp hc with hc | hc
      · exact .inl hc
      · have hc' := List.mem_append_right before hc
        exact .inr ⟨hall c hc', hfixed c hc'⟩
  rw [hmerged _ hnew, hmap, mergeClasses_map]
  · intro c hc d hd he
    obtain rfl | ⟨huc, hfc⟩ := hcases c hc
    · obtain rfl | ⟨hud, hfd⟩ := hcases d hd
      · rfl
      · rw [he, hfd] at hother
        exact absurd hud hother
    · obtain rfl | ⟨hud, hfd⟩ := hcases d hd
      · rw [← he, hfc] at hother
        exact absurd huc hother
      · rw [← hfc, ← hfd, he]
  · intro c hc
    obtain rfl | ⟨-, hfc⟩ := hcases c hc
    · exact iff_of_false hnew hown
    · rw [hfc]

end DesignMarkup
