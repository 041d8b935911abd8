import DesignMarkup.Proofs.Layout.Spacing

/-!
# `Proofs.Layout.Compatible` — classes that do not contradict each other

The classes of an element come from several sources: the class minted for it, classes of its role, and
classes of its distances and of its flow, of which two bring the same gap. They are told apart by their
heads. No two of the distances and of the flow have the same head, but for the gap, of which there is only
one, and none of them has the head of a minted class or of a class of a role. So what is settled twice by
the classes of an element is settled in the same way, and merging leaves it once.

## Contents

* `foldl_addClass_of_new`, `nodup_mergeClasses`, `prefix_mergeClasses`: merging, in order;
* `head_scaleClass`, `head_numberedName`: heads;
* `Compatible`: **classes that do not contradict each other**;
* `Utilities`, `Layer.roleClasses_parts`: the heads of distances and flow, and the classes of a role;
* `Layer.roleClasses_compatible`: **the classes of a node are compatible**.
-/

namespace DesignMarkup

namespace Layout

/-! ## Merging in order -/

section Merging

variable {merged cs : List String}

/-- What has been merged stays in front. -/
theorem prefix_foldl_addClass : merged <+: cs.foldl addClass merged := by
  induction cs generalizing merged with
  | nil => exact List.prefix_refl merged
  | cons c cs ih =>
    refine List.IsPrefix.trans ?_ ih
    unfold addClass
    split
    · exact List.prefix_refl merged
    · exact List.prefix_append merged [c]

theorem nodup_foldl_addClass (h : merged.Nodup) : (cs.foldl addClass merged).Nodup := by
  induction cs generalizing merged with
  | nil => exact h
  | cons c cs ih =>
    refine ih ?_
    unfold addClass
    split
    · exact h
    · next hnew =>
      have hc : c ∉ merged := fun hc => hnew (.inr hc)
      exact h.append (List.nodup_singleton c) (List.disjoint_singleton.mpr hc)

/-- **Merging leaves no class twice.** -/
theorem nodup_mergeClasses (groups : List (List String)) : (mergeClasses groups).Nodup :=
  nodup_foldl_addClass List.nodup_nil

/-- Classes that are all different and not empty are merged as they are. -/
theorem foldl_addClass_of_new (h : (merged ++ cs).Nodup) (hempty : "" ∉ cs) :
    cs.foldl addClass merged = merged ++ cs := by
  induction cs generalizing merged with
  | nil => exact (List.append_nil merged).symm
  | cons c cs ih =>
    obtain ⟨hc, hcs⟩ := not_or.mp (mt List.mem_cons.mpr hempty)
    rw [List.append_cons] at h ⊢
    have hnew : c ∉ merged := fun hm =>
      List.disjoint_of_nodup_append h.of_append_left hm (List.mem_singleton_self c)
    have hadd : addClass merged c = merged ++ [c] := if_neg (not_or.mpr ⟨Ne.symm hc, hnew⟩)
    rw [List.foldl_cons, hadd]
    exact ih h hcs

/-- **Such classes stay in front** of whatever is merged with them. -/
theorem prefix_mergeClasses {front : List String} (h : front.Nodup) (hempty : "" ∉ front)
    (rest : List String) : front <+: mergeClasses [front ++ rest] := by
  have hfront : front.foldl addClass [] = front := foldl_addClass_of_new h hempty
  rw [mergeClasses, List.flatten_singleton, List.foldl_append, hfront]
  exact prefix_foldl_addClass

end Merging

/-! ## Heads -/

/-- The head of a numbered name is its stem, if there is no hyphen in it. -/
theorem head_numberedName {stem : String} (h : '-' ∉ stem.toList) (k : Nat) :
    head (numberedName stem k) = stem := by
  have hall : ∀ c ∈ stem.toList, (c != '-') = true := fun c hc =>
    bne_iff_ne.mpr fun he => h (he ▸ hc)
  rw [head, toList_numberedName, List.takeWhile_append_of_pos hall, List.takeWhile_cons_of_neg (by decide),
    List.append_nil, String.ofList_toList]

theorem head_scaleClass {stem : String} (h : stem ∈ scaleStems) (step : Nat) :
    head (scaleClass stem step) = stem := by
  have hstems : ∀ stem ∈ scaleStems, '-' ∉ stem.toList := by decide
  exact head_numberedName (hstems stem h) step

/-- The heads of the classes of the flow. -/
def flowHeads : List String :=
  ["d", "flex", "justify", "align"]

/-- The heads of the classes of padding, by the three ways of writing it. -/
def paddingFamilies : List (List String) :=
  [["p"], ["px", "py"], ["ps", "pe", "pt", "pb"]]

/-- The heads of the classes of distances and of the flow. -/
def utilityHeads : List String :=
  paddingFamilies.flatten ++ "gap" :: flowHeads

/-- The heads of which there are not two different classes at an element. -/
def singleHeads : List String :=
  ["gap", "flex", "justify", "align"]

end Layout

open Layout

/-- The classes of a role that stand before the minted one. -/
def Role.leading : Role → List String
  | .button => ["btn", "btn-primary"]
  | _ => []

/-- The classes of a role that stand behind it. -/
def Role.trailing : Role → List String
  | .image => ["img-fluid"]
  | _ => []

/-- **Classes that do not contradict each other**, at an element for a layer in a role. The minted class stands
first, or right behind the classes of a button; there is no class twice and none that is empty; there is one
gap, one direction and one placement along each axis at most; padding is written in one way; and the flow is
that of a container with a layout. -/
structure Compatible (l : Layer) (r : Role) (own : String) (cs : List String) : Prop where
  distinct : cs.Nodup
  nonempty : "" ∉ cs
  own_first : ∃ rest, cs = r.leading ++ own :: rest
  own_once : cs.count own = 1
  single : ∀ c ∈ cs, ∀ d ∈ cs, head c = head d → head c ∈ singleHeads → c = d
  one_family : ∀ c ∈ cs, ∀ d ∈ cs, ∀ f ∈ paddingFamilies, ∀ g ∈ paddingFamilies,
    head c ∈ f → head d ∈ g → f = g
  flow : (∃ c ∈ cs, head c ∈ flowHeads) → r = .container ∧ ∃ mode, l.layoutMode = some mode ∧ mode ≠ ""

theorem Compatible.ne_nil {l : Layer} {r : Role} {own : String} {cs : List String}
    (h : Compatible l r own cs) : cs ≠ [] := by
  rintro rfl
  exact absurd h.own_once (by rw [List.count_nil]; decide)

/-! ## The heads of distances and flow -/

namespace Layout

/-- **The classes of distances and flow**: their heads are all different, those of padding are of one way to
write it, and the flow is that of a container with a layout. -/
structure Utilities (l : Layer) (r : Role) (us : List String) : Prop where
  heads : ∃ family ∈ paddingFamilies, (us.map head).Sublist (family ++ "gap" :: flowHeads)
  flow : (∃ c ∈ us, head c ∈ flowHeads) → r = .container ∧ ∃ mode, l.layoutMode = some mode ∧ mode ≠ ""

section Utilities

variable {l : Layer} {r : Role} {us : List String}

/-- Each is known by its head. -/
theorem Utilities.eq_of_head (h : Utilities l r us) :
    ∀ c ∈ us, ∀ d ∈ us, head c = head d → c = d := by
  obtain ⟨family, hfamily, hheads⟩ := h.heads
  have hdistinct : ∀ family ∈ paddingFamilies, (family ++ "gap" :: flowHeads).Nodup := by decide
  intro c hc d hd heq
  exact List.inj_on_of_nodup_map ((hdistinct family hfamily).sublist hheads) hc hd heq

/-- Padding is written in one way. -/
theorem Utilities.one_family (h : Utilities l r us) :
    ∃ family, ∀ c ∈ us, ∀ f ∈ paddingFamilies, head c ∈ f → f = family := by
  obtain ⟨family, hfamily, hheads⟩ := h.heads
  have hone : ∀ family ∈ paddingFamilies, ∀ h ∈ family ++ "gap" :: flowHeads,
      ∀ f ∈ paddingFamilies, h ∈ f → f = family := by decide
  exact ⟨family, fun c hc => hone family hfamily _ (hheads.subset (List.mem_map_of_mem hc))⟩

end Utilities

section Heads

variable {l : Layer} {cs : List String}

theorem stepClass_heads {stem : String} (h : stem ∈ scaleStems) (step : Nat) :
    ((if step = 0 then [] else [scaleClass stem step]).map head).Sublist [stem] := by
  split
  · exact List.nil_sublist _
  · rw [List.map_singleton, head_scaleClass h]

theorem gapClasses_heads (h : gapClasses l = .ok cs) : (cs.map head).Sublist ["gap"] := by
  unfold gapClasses at h
  split at h
  · obtain ⟨gap, -, h⟩ := bind_eq_ok.mp h
    rw [← pure_eq_ok.mp h]
    exact stepClass_heads (by decide) gap
  · rw [← Except.ok.inj h]
    exact List.nil_sublist _

theorem sideClasses_heads {stem : String} (hs : stem ∈ scaleStems) {n : Option Number}
    (h : sideClasses stem n = .ok cs) : (cs.map head).Sublist [stem] := by
  unfold sideClasses at h
  split at h
  · obtain ⟨step, -, h⟩ := bind_eq_ok.mp h
    rw [← pure_eq_ok.mp h, List.map_singleton, head_scaleClass hs]
  · rw [← Except.ok.inj h]
    exact List.nil_sublist _

/-- Symmetric padding is written with one class or by direction. -/
theorem symmetricClasses_heads {h v : Option Number} (hcs : symmetricClasses h v = .ok cs) :
    ∃ family ∈ paddingFamilies, (cs.map head).Sublist family := by
  unfold symmetricClasses at hcs
  obtain ⟨hor, -, hcs⟩ := bind_eq_ok.mp hcs
  obtain ⟨ver, -, hcs⟩ := bind_eq_ok.mp hcs
  split at hcs
  · refine ⟨["p"], by decide, ?_⟩
    rw [← pure_eq_ok.mp hcs, List.map_singleton, head_scaleClass (by decide)]
  · refine ⟨["px"] ++ ["py"], by decide, ?_⟩
    rw [← pure_eq_ok.mp hcs, List.map_append]
    exact (stepClass_heads (by decide) hor).append (stepClass_heads (by decide) ver)

/-- **Padding is written in one way.** -/
theorem paddingClasses_heads {p : Padding} (h : paddingClasses p = .ok cs) :
    ∃ family ∈ paddingFamilies, (cs.map head).Sublist family := by
  unfold paddingClasses at h
  split at h
  · rw [← Except.ok.inj h]
    exact ⟨["p"], by decide, List.nil_sublist _⟩
  · split at h
    · exact symmetricClasses_heads h
    · obtain ⟨left, hl, h⟩ := bind_eq_ok.mp h
      obtain ⟨right, hr, h⟩ := bind_eq_ok.mp h
      obtain ⟨top, ht, h⟩ := bind_eq_ok.mp h
      obtain ⟨bottom, hb, h⟩ := bind_eq_ok.mp h
      refine ⟨["ps"] ++ ["pe"] ++ ["pt"] ++ ["pb"], by decide, ?_⟩
      rw [← pure_eq_ok.mp h]
      simp only [List.map_append]
      exact (((sideClasses_heads (by decide) hl).append (sideClasses_heads (by decide) hr)).append
        (sideClasses_heads (by decide) ht)).append (sideClasses_heads (by decide) hb)

theorem directionClasses_heads (mode : String) : ((directionClasses mode).map head).Sublist ["flex"] := by
  unfold directionClasses
  split
  · decide
  · split <;> decide

/-- The class of a placement has the head of its table. -/
theorem placementClasses_heads (table : List (String × String)) (h : String)
    (ht : ∀ e ∈ table, head e.2 = h) (placement : Option String) :
    ((placementClasses table placement).map head).Sublist [h] := by
  unfold placementClasses
  cases hc : placement.bind (Entries.get? · table) with
  | none => exact List.nil_sublist _
  | some c =>
    obtain ⟨name, -, hname⟩ := Option.bind_eq_some_iff.mp hc
    rw [Option.toList_some, List.map_singleton, ht _ (get?_mem hname)]

/-- **The flow** of a layer with a layout: its own classes, and the gap once more. -/
theorem flexClasses_heads (h : flexClasses l = .ok cs) :
    ∃ flow, (flow.map head).Sublist flowHeads ∧
      (flow ≠ [] → ∃ mode, l.layoutMode = some mode ∧ mode ≠ "") ∧
      ∀ c ∈ cs, c ∈ flow ∨ ∃ gap, gapClasses l = .ok gap ∧ c ∈ gap := by
  unfold flexClasses at h
  split at h
  · refine ⟨[], List.nil_sublist _, fun hne => absurd rfl hne, ?_⟩
    rw [← Except.ok.inj h]
    exact List.forall_mem_nil _
  · next mode hmode =>
    obtain ⟨gap, hgap, h⟩ := bind_eq_ok.mp h
    refine ⟨"d-flex" :: directionClasses mode ++ placementClasses justifyClasses l.primaryAlign ++
      placementClasses alignClasses l.counterAlign, ?_, fun _ => ?_, ?_⟩
    · have hd : (["d-flex"].map head).Sublist ["d"] := by decide
      have hdirection := hd.append (directionClasses_heads mode)
      have hjustify := hdirection.append
        (placementClasses_heads justifyClasses "justify" (by decide) l.primaryAlign)
      have halign := hjustify.append
        (placementClasses_heads alignClasses "align" (by decide) l.counterAlign)
      rw [List.map_append, List.map_append]
      exact halign
    · obtain ⟨hmem, hne⟩ := Option.filter_eq_some_iff.mp hmode
      exact ⟨mode, hmem, by simpa using hne⟩
    · rw [← pure_eq_ok.mp h]
      intro c hc
      exact (List.mem_append.mp hc).imp_right fun hc => ⟨gap, hgap, hc⟩

/-- Padding, gap and flow together. -/
theorem utilities_append {r : Role} {padding gap flow : List String}
    (hpadding : paddingClasses l.padding = .ok padding) (hgap : gapClasses l = .ok gap)
    (hflow : (flow.map head).Sublist flowHeads)
    (hset : flow ≠ [] → r = .container ∧ ∃ mode, l.layoutMode = some mode ∧ mode ≠ "") :
    Utilities l r (padding ++ gap ++ flow) := by
  obtain ⟨family, hfamily, hheads⟩ := paddingClasses_heads hpadding
  have hdistances := hheads.append (gapClasses_heads hgap)
  rw [← List.map_append] at hdistances
  refine ⟨⟨family, hfamily, ?_⟩, ?_⟩
  · rw [List.map_append, ← List.singleton_append, ← List.append_assoc]
    exact hdistances.append hflow
  · rintro ⟨c, hc, hhead⟩
    -- no class of a distance has a head of the flow
    have hother : ∀ family ∈ paddingFamilies, ∀ h ∈ family ++ ["gap"], h ∉ flowHeads := by decide
    rcases List.mem_append.mp hc with hc | hc
    · have hmem : head c ∈ family ++ ["gap"] := hdistances.subset (List.mem_map_of_mem hc)
      exact absurd hhead (hother family hfamily _ hmem)
    · exact hset (List.ne_nil_of_mem hc)

end Heads

end Layout

/-! ## The classes of a node -/

/-- **The classes of a node in its role**, before they are merged: those of the role around the minted one, and
then some of distances and flow. -/
theorem Layer.roleClasses_parts {l : Layer} {r : Role} {own : String} {cs : List String}
    (hown : own ≠ "") (h : l.roleClasses r own = .ok cs) :
    ∃ us rest, Utilities l r us ∧ rest ⊆ us ∧
      cs = mergeClasses [(r.leading ++ [own]) ++ (r.trailing ++ rest)] := by
  -- outside containers there are distances only
  have hdistances : ∀ {spacing : List String}, spacingClasses l = .ok spacing →
      ∃ us, Utilities l r us ∧ spacing ⊆ us := by
    intro spacing hs
    obtain ⟨padding, hpadding, hs⟩ := bind_eq_ok.mp hs
    obtain ⟨gap, hgap, hs⟩ := bind_eq_ok.mp hs
    rw [← pure_eq_ok.mp hs]
    have hnone : (([] : List String).map head).Sublist flowHeads := List.nil_sublist _
    exact ⟨_, utilities_append hpadding hgap hnone fun hne => absurd rfl hne,
      List.subset_append_left _ _⟩
  cases r with
  | text =>
    refine ⟨[], [], ⟨⟨["p"], by decide, List.nil_sublist _⟩, ?_⟩, List.nil_subset _, ?_⟩
    · rintro ⟨c, hc, -⟩
      exact absurd hc List.not_mem_nil
    · have halone : [own].foldl addClass [] = [own] :=
        foldl_addClass_of_new (List.nodup_singleton own) (mt List.mem_singleton.mp (Ne.symm hown))
      rw [← Except.ok.inj h]
      exact halone.symm
  | container =>
    obtain ⟨spacing, hs, h⟩ := bind_eq_ok.mp h
    obtain ⟨flex, hf, h⟩ := bind_eq_ok.mp h
    obtain ⟨padding, hpadding, hs⟩ := bind_eq_ok.mp hs
    obtain ⟨gap, hgap, hs⟩ := bind_eq_ok.mp hs
    obtain ⟨flow, hflow, hset, hflex⟩ := flexClasses_heads hf
    refine ⟨padding ++ gap ++ flow, spacing ++ flex,
      utilities_append hpadding hgap hflow fun hne => ⟨rfl, hset hne⟩, ?_, ?_⟩
    · rw [← pure_eq_ok.mp hs]
      refine List.append_subset.mpr ⟨List.subset_append_left _ _, fun c hc => ?_⟩
      -- the gap of the flow is the one that is there already
      rcases hflex c hc with hc | ⟨gap', hgap', hc⟩
      · exact List.mem_append_right _ hc
      · obtain rfl := Except.ok.inj (hgap.symm.trans hgap')
        exact List.mem_append_left _ (List.mem_append_right _ hc)
    · rw [← pure_eq_ok.mp h, mergeClasses, mergeClasses]
      congr 1
      simp [Role.leading, Role.trailing]
  | button =>
    obtain ⟨spacing, hs, h⟩ := bind_eq_ok.mp h
    obtain ⟨us, hus, hsub⟩ := hdistances hs
    refine ⟨us, spacing, hus, hsub, ?_⟩
    rw [← pure_eq_ok.mp h]
    rfl
  | image =>
    obtain ⟨spacing, hs, h⟩ := bind_eq_ok.mp h
    obtain ⟨us, hus, hsub⟩ := hdistances hs
    refine ⟨us, spacing, hus, hsub, ?_⟩
    rw [← pure_eq_ok.mp h]
    rfl
  | plain =>
    obtain ⟨spacing, hs, h⟩ := bind_eq_ok.mp h
    obtain ⟨us, hus, hsub⟩ := hdistances hs
    refine ⟨us, spacing, hus, hsub, ?_⟩
    rw [← pure_eq_ok.mp h]
    rfl

/-- No minted class and no class of a role has the head of a distance or of the flow. -/
theorem head_not_utility (r : Role) (kind : Kind) (k : Nat) :
    ∀ c ∈ (r.leading ++ [numberedName (r.stem kind) k]) ++ r.trailing,
      head c ∉ utilityHeads := by
  have hroles : ∀ c ∈ r.leading ++ r.trailing, head c ∉ utilityHeads := by
    cases r <;> decide
  have hstem : '-' ∉ (r.stem kind).toList ∧ r.stem kind ∉ utilityHeads := by
    cases r <;> cases kind <;> decide
  have hown : head (numberedName (r.stem kind) k) ∉ utilityHeads := by
    rw [head_numberedName hstem.1]
    exact hstem.2
  obtain ⟨hleading, htrailing⟩ := List.forall_mem_append.mp hroles
  exact List.forall_mem_append.mpr
    ⟨List.forall_mem_append.mpr ⟨hleading, List.forall_mem_singleton.mpr hown⟩, htrailing⟩

/-- What stands in front of the merged classes is all different. -/
theorem nodup_leading (r : Role) (kind : Kind) (k : Nat) :
    (r.leading ++ [numberedName (r.stem kind) k]).Nodup := by
  have hleading : r.leading.Nodup ∧ ∀ c ∈ r.leading, c ∈ fixedClasses := by
    cases r <;> decide
  refine hleading.1.append (List.nodup_singleton _) (List.disjoint_singleton.mpr fun hown => ?_)
  exact (isUtility_of_fixed (hleading.2 _ hown)).ne_numberedName r kind k rfl

/-- **The classes of a node are compatible.** -/
theorem Layer.roleClasses_compatible {l : Layer} {r : Role} {k : Nat} {cs : List String}
    (h : l.roleClasses r (numberedName (r.stem l.kind) k) = .ok cs) :
    Compatible l r (numberedName (r.stem l.kind) k) cs := by
  have hown : IsWord (numberedName (r.stem l.kind) k) := isWord_numberedName (isWord_stem r l.kind) k
  have hnamed := head_not_utility r l.kind k
  have hfront := nodup_leading r l.kind k
  generalize numberedName (r.stem l.kind) k = own at h hown hnamed hfront ⊢
  obtain ⟨us, rest, hus, hsub, hcs⟩ := Layer.roleClasses_parts hown.1 h
  have hmem : ∀ {c}, c ∈ cs ↔ c ∈ (r.leading ++ [own]) ++ (r.trailing ++ rest) ∧ c ≠ "" := by
    intro c
    rw [hcs, mem_mergeClasses]
    simp
  have hnodup : cs.Nodup := hcs ▸ nodup_mergeClasses _
  have hnonempty : "" ∉ cs := fun he => (hmem.mp he).2 rfl
  have hownmem : own ∈ cs := hmem.mpr ⟨by simp, hown.1⟩
  -- a class with a head of a distance or of the flow is one of them
  have hfrom : ∀ c ∈ cs, head c ∈ utilityHeads → c ∈ us := by
    intro c hc hhead
    have hc := (hmem.mp hc).1
    rw [← List.append_assoc] at hc
    rcases List.mem_append.mp hc with hc | hc
    · exact absurd hhead (hnamed c hc)
    · exact hsub hc
  refine ⟨hnodup, hnonempty, ?_, List.count_eq_one_of_mem hnodup hownmem, ?_, ?_, ?_⟩
  · have hleading : "" ∉ r.leading := by cases r <;> decide
    have hempty : "" ∉ r.leading ++ [own] := fun he =>
      (List.mem_append.mp he).elim hleading fun he => hown.1 (List.mem_singleton.mp he).symm
    obtain ⟨tail, htail⟩ := prefix_mergeClasses hfront hempty (r.trailing ++ rest)
    exact ⟨tail, by rw [hcs, ← htail, List.append_assoc, List.singleton_append]⟩
  · have hutility : ∀ h ∈ singleHeads, h ∈ utilityHeads := by decide
    intro c hc d hd heq hsingle
    exact hus.eq_of_head c (hfrom c hc (hutility _ hsingle)) d
      (hfrom d hd (heq ▸ hutility _ hsingle)) heq
  · have hutility : ∀ f ∈ paddingFamilies, ∀ h ∈ f, h ∈ utilityHeads := by decide
    obtain ⟨family, hfamily⟩ := hus.one_family
    have hall : ∀ c ∈ cs, ∀ f ∈ paddingFamilies, head c ∈ f → f = family := fun c hc f hf hhead =>
      hfamily c (hfrom c hc (hutility f hf _ hhead)) f hf hhead
    exact fun c hc d hd f hf g hg hcf hdg => (hall c hc f hf hcf).trans (hall d hd g hg hdg).symm
  · have hutility : ∀ h ∈ flowHeads, h ∈ utilityHeads := by decide
    rintro ⟨c, hc, hhead⟩
    exact hus.flow ⟨c, hfrom c hc (hutility _ hhead), hhead⟩

end DesignMarkup
