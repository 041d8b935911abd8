import DesignMarkup.Proofs.Conversion.Depiction
import DesignMarkup.Proofs.Layout.Nearest

/-!
# `Proofs.Layout.Spacing` — what the classes of distances say

The padding of a node is written in one of three ways, with one class for all sides, with one for each
direction, or with one for each side, and a class may be left out where its step is zero. Here the classes
are read, each by itself, as settings of spaces: the spaces that its stem stands for get its step. Whichever
way is taken, every space is set once at most, and it has the step of its measure, which is zero if it is
not set at all.

Sides that are given the same step without a look at both have equal measures, and equal measures have the
same step also if one is a whole number and the other a double.

## Contents

* `Space`, `Setting`, `Setting.read?`, `stepOf`: spaces, and classes as settings of them;
* `Denotes`, `Denotes.append`: **what classes say of some spaces**, and of more;
* `spacingClasses_denote`: **the classes of distances say the steps of all spaces**.
-/

namespace DesignMarkup.Layout

/-! ## Classes as settings -/

/-- A space of a node: inside one of its sides, or between its children. -/
inductive Space where
  | left
  | right
  | top
  | bottom
  | gap
  deriving DecidableEq, Repr

/-- The spaces inside the sides. -/
def sides : List Space :=
  [.left, .right, .top, .bottom]

theorem forall_sides {p : Space → Prop} (hleft : p .left) (hright : p .right) (htop : p .top)
    (hbottom : p .bottom) : ∀ s ∈ sides, p s
  | .left, _ => hleft
  | .right, _ => hright
  | .top, _ => htop
  | .bottom, _ => hbottom

/-- The measure of a space. -/
def measureOf (l : Layer) : Space → Option Number
  | .left => l.padding.left
  | .right => l.padding.right
  | .top => l.padding.top
  | .bottom => l.padding.bottom
  | .gap => l.itemSpacing

/-- What a class sets: some spaces, to one step. -/
structure Setting where
  spaces : List Space
  step : Nat
  deriving DecidableEq, Repr

/-- The spaces that the stems of the scale stand for. -/
def stemSpaces : List (String × List Space) :=
  [("p", sides), ("px", [.left, .right]), ("py", [.top, .bottom]),
   ("ps", [.left]), ("pe", [.right]), ("pt", [.top]), ("pb", [.bottom]), ("gap", [.gap])]

/-- The head of a class: what stands before its first hyphen. -/
def head (c : String) : String :=
  String.ofList (c.toList.takeWhile (· != '-'))

/-- **A class read as a setting**: its head stands for spaces, and after the hyphen there is one digit, which is
a step of the scale. -/
def Setting.read? (c : String) : Option Setting :=
  match c.toList.dropWhile (· != '-') with
  | ['-', digit] => do
    let spaces ← Entries.get? (head c) stemSpaces
    let step := digit.toNat - '0'.toNat
    if digit.isDigit ∧ step ∈ steps.map Prod.fst then some ⟨spaces, step⟩ else none
  | _ => none

/-- The step that settings give to a space: zero if none of them sets it. -/
def stepOf (settings : List Setting) (s : Space) : Nat :=
  ((settings.find? fun x => decide (s ∈ x.spaces)).map Setting.step).getD 0

/-- The classes of the scale are read as what they are written for. -/
theorem read?_scaleClass : ∀ e ∈ stemSpaces, ∀ step ∈ steps.map Prod.fst,
    Setting.read? (scaleClass e.1 step) = some ⟨e.2, step⟩ := by
  decide +kernel

section Steps

variable {settings more : List Setting} {s : Space}

theorem not_mem_spaces : s ∉ settings.flatMap Setting.spaces ↔ ∀ x ∈ settings, s ∉ x.spaces := by
  simp [List.mem_flatMap]

/-- Later settings say nothing of a space that they do not set. -/
theorem stepOf_append_left (h : s ∉ more.flatMap Setting.spaces) :
    stepOf (settings ++ more) s = stepOf settings s := by
  have hnone : more.find? (fun x => decide (s ∈ x.spaces)) = none :=
    List.find?_eq_none.mpr fun x hx => by simpa using not_mem_spaces.mp h x hx
  rw [stepOf, List.find?_append, hnone, Option.or_none, stepOf]

/-- Nor do earlier ones. -/
theorem stepOf_append_right (h : s ∉ settings.flatMap Setting.spaces) :
    stepOf (settings ++ more) s = stepOf more s := by
  have hnone : settings.find? (fun x => decide (s ∈ x.spaces)) = none :=
    List.find?_eq_none.mpr fun x hx => by simpa using not_mem_spaces.mp h x hx
  rw [stepOf, List.find?_append, hnone, Option.none_or, stepOf]

end Steps

/-! ## What classes say -/

/-- **What classes say of spaces**: each is read as a setting, no space is set twice and none but these, and
each of these has the step of its measure. -/
def Denotes (l : Layer) (spaces : List Space) (cs : List String) : Prop :=
  ∃ settings, cs.map Setting.read? = settings.map some ∧
    (settings.flatMap Setting.spaces).Nodup ∧ settings.flatMap Setting.spaces ⊆ spaces ∧
    ∀ s ∈ spaces, nearestScale (measureOf l s) = .ok (stepOf settings s)

section Denotes

variable {l : Layer} {spaces spaces' : List Space} {cs ds : List String}

/-- Classes of different spaces, one after the other. -/
theorem Denotes.append (hc : Denotes l spaces cs) (hd : Denotes l spaces' ds)
    (h : ∀ s ∈ spaces, s ∉ spaces') : Denotes l (spaces ++ spaces') (cs ++ ds) := by
  obtain ⟨settings, hread, hnodup, hsub, hsteps⟩ := hc
  obtain ⟨more, hread', hnodup', hsub', hsteps'⟩ := hd
  refine ⟨settings ++ more, ?_, ?_, ?_, ?_⟩
  · rw [List.map_append, List.map_append, hread, hread']
  · rw [List.flatMap_append]
    exact hnodup.append hnodup' fun s hs hs' => h s (hsub hs) (hsub' hs')
  · rw [List.flatMap_append]
    exact List.append_subset.mpr
      ⟨List.Subset.trans hsub (List.subset_append_left _ _),
        List.Subset.trans hsub' (List.subset_append_right _ _)⟩
  · intro s hs
    rcases List.mem_append.mp hs with hs | hs
    · rw [stepOf_append_left fun hmore => h s hs (hsub' hmore)]
      exact hsteps s hs
    · rw [stepOf_append_right fun hset => h s (hsub hset) hs]
      exact hsteps' s hs

/-- No class says that the steps are zero. -/
theorem denotes_nil (h : ∀ s ∈ spaces, nearestScale (measureOf l s) = .ok 0) : Denotes l spaces [] :=
  ⟨[], rfl, List.nodup_nil, List.nil_subset _, h⟩

/-- One class says that the steps are its own. -/
theorem denotes_scaleClass {stem : String} {step : Nat} (hstem : (stem, spaces) ∈ stemSpaces)
    (h : ∀ s ∈ spaces, nearestScale (measureOf l s) = .ok step) :
    Denotes l spaces [scaleClass stem step] := by
  have hstems : ∀ e ∈ stemSpaces, e.2 ≠ [] ∧ e.2.Nodup := by decide
  obtain ⟨hne, hnodup⟩ := hstems _ hstem
  obtain ⟨s, hs⟩ := List.exists_mem_of_ne_nil _ hne
  have hread := read?_scaleClass _ hstem step (mem_steps_of_nearestScale (h s hs))
  refine ⟨[⟨spaces, step⟩], ?_, ?_, ?_, ?_⟩
  · rw [List.map_singleton, hread, List.map_singleton]
  · rw [List.flatMap_singleton]
    exact hnodup
  · rw [List.flatMap_singleton]
    exact List.Subset.refl _
  · intro s hs
    rw [h s hs, stepOf, List.find?_cons_of_pos (by simpa using hs)]
    rfl

/-- A class that is left out if its step is zero. -/
theorem denotes_stepClass {stem : String} {step : Nat} (hstem : (stem, spaces) ∈ stemSpaces)
    (h : ∀ s ∈ spaces, nearestScale (measureOf l s) = .ok step) :
    Denotes l spaces (if step = 0 then [] else [scaleClass stem step]) := by
  split
  · next hzero => exact denotes_nil (hzero ▸ h)
  · exact denotes_scaleClass hstem h

end Denotes

/-! ## The classes of distances -/

section Layer

variable {l : Layer} {cs : List String}

/-- The class of one side. -/
theorem sideClasses_denote {stem : String} {s : Space} (hstem : (stem, [s]) ∈ stemSpaces)
    (h : sideClasses stem (measureOf l s) = .ok cs) : Denotes l [s] cs := by
  unfold sideClasses at h
  split at h
  · obtain ⟨step, hstep, h⟩ := bind_eq_ok.mp h
    rw [← pure_eq_ok.mp h]
    exact denotes_scaleClass hstem (List.forall_mem_singleton.mpr hstep)
  · next hset =>
    rw [← Except.ok.inj h]
    exact denotes_nil (List.forall_mem_singleton.mpr
      (nearestScale_of_not_isSet (Bool.eq_false_iff.mpr hset)))

/-- The class of the gap. -/
theorem gapClasses_denote (h : gapClasses l = .ok cs) : Denotes l [.gap] cs := by
  unfold gapClasses at h
  split at h
  · obtain ⟨gap, hgap, h⟩ := bind_eq_ok.mp h
    rw [← pure_eq_ok.mp h]
    exact denotes_stepClass (by decide) (List.forall_mem_singleton.mpr hgap)
  · next hset =>
    rw [← Except.ok.inj h]
    exact denotes_nil (List.forall_mem_singleton.mpr
      (nearestScale_of_not_isSet (Bool.eq_false_iff.mpr hset)))

/-- **Symmetric padding**: in each direction the step of one side is that of the other. -/
theorem symmetricClasses_denote (hhor : sameMeasure l.padding.left l.padding.right = true)
    (hver : sameMeasure l.padding.top l.padding.bottom = true)
    (h : symmetricClasses l.padding.left l.padding.top = .ok cs) :
    Denotes l sides cs := by
  unfold symmetricClasses at h
  obtain ⟨hor, hleft, h⟩ := bind_eq_ok.mp h
  obtain ⟨ver, htop, h⟩ := bind_eq_ok.mp h
  have hright : nearestScale l.padding.right = .ok hor := nearestScale_of_sameMeasure hhor ▸ hleft
  have hbottom : nearestScale l.padding.bottom = .ok ver := nearestScale_of_sameMeasure hver ▸ htop
  split at h
  · next heq =>
    rw [← pure_eq_ok.mp h]
    subst heq
    exact denotes_scaleClass (by decide) (forall_sides hleft hright htop hbottom)
  · rw [← pure_eq_ok.mp h]
    have hhorizontal : Denotes l [.left, .right] (if hor = 0 then [] else [scaleClass "px" hor]) :=
      denotes_stepClass (by decide)
        (List.forall_mem_cons.mpr ⟨hleft, List.forall_mem_singleton.mpr hright⟩)
    have hvertical : Denotes l [.top, .bottom] (if ver = 0 then [] else [scaleClass "py" ver]) :=
      denotes_stepClass (by decide)
        (List.forall_mem_cons.mpr ⟨htop, List.forall_mem_singleton.mpr hbottom⟩)
    exact hhorizontal.append hvertical (by decide)

/-- **The padding of a node**, in whichever way it is written. -/
theorem paddingClasses_denote (h : paddingClasses l.padding = .ok cs) :
    Denotes l sides cs := by
  unfold paddingClasses at h
  split at h
  · next hset =>
    -- nothing is set, so every step is zero
    rw [← Except.ok.inj h]
    simp only [Padding.isSet, Bool.not_eq_true', Bool.or_eq_false_iff] at hset
    obtain ⟨⟨⟨hleft, hright⟩, htop⟩, hbottom⟩ := hset
    exact denotes_nil (forall_sides (nearestScale_of_not_isSet hleft) (nearestScale_of_not_isSet hright)
      (nearestScale_of_not_isSet htop) (nearestScale_of_not_isSet hbottom))
  · split at h
    · next hsame =>
      obtain ⟨hhor, hver⟩ := Bool.and_eq_true_iff.mp hsame
      exact symmetricClasses_denote hhor hver h
    · obtain ⟨left, hl, h⟩ := bind_eq_ok.mp h
      obtain ⟨right, hr, h⟩ := bind_eq_ok.mp h
      obtain ⟨top, ht, h⟩ := bind_eq_ok.mp h
      obtain ⟨bottom, hb, h⟩ := bind_eq_ok.mp h
      rw [← pure_eq_ok.mp h]
      have hsides := ((sideClasses_denote (s := .left) (by decide) hl).append
        (sideClasses_denote (s := .right) (by decide) hr) (by decide)).append
        (sideClasses_denote (s := .top) (by decide) ht) (by decide)
      exact hsides.append (sideClasses_denote (s := .bottom) (by decide) hb) (by decide)

/-- **The classes of distances say the steps of all spaces.** Every class is read as a setting, no space is set
twice, and the step of each space, zero if it is not set, is the nearest step of its measure. -/
theorem spacingClasses_denote (l : Layer) (cs : List String) (h : spacingClasses l = .ok cs) :
    ∃ settings, cs.map Setting.read? = settings.map some ∧
      (settings.flatMap Setting.spaces).Nodup ∧
      ∀ s, nearestScale (measureOf l s) = .ok (stepOf settings s) := by
  obtain ⟨padding, hpadding, h⟩ := bind_eq_ok.mp h
  obtain ⟨gap, hgap, h⟩ := bind_eq_ok.mp h
  obtain ⟨settings, hread, hnodup, -, hsteps⟩ :=
    (paddingClasses_denote hpadding).append (gapClasses_denote hgap) (by decide)
  rw [← pure_eq_ok.mp h]
  exact ⟨settings, hread, hnodup, fun s => hsteps s (by cases s <;> decide)⟩

end Layer

/-- A layer with equal padding on the left and on the right, once as a whole number and once as a double. -/
def cushionedLayer : Layer :=
  { Layer.bare .frame "Card" none with
    padding := ⟨some (.int 8), some (.double (.round false 8 1)), none, none⟩
    itemSpacing := some (.int 12) }

theorem cushionedLayer_denoted :
    spacingClasses cushionedLayer = .ok ["px-2", "gap-3"] ∧
    ∃ settings, ["px-2", "gap-3"].map Setting.read? = settings.map some ∧
      (settings.flatMap Setting.spaces).Nodup ∧
      ∀ s, nearestScale (measureOf cushionedLayer s) = .ok (stepOf settings s) := by
  have hclasses : spacingClasses cushionedLayer = .ok ["px-2", "gap-3"] := rfl
  exact ⟨hclasses, spacingClasses_denote _ _ hclasses⟩

end DesignMarkup.Layout
