import DesignMarkup.Proofs.Conversion.Walk
import DesignMarkup.Proofs.Layout.Nearest

/-!
# `Proofs.Conversion.Failure` — which designs can be converted

Reading a design checks what its values are, not how large they are, and a number that is far too large or
is not a number at all fails only when it is rounded. A conversion rounds the channels of the colours that
it writes, and the padding and the gap of every layer that it shows except texts. So a design can be
converted exactly if those numbers are bounded, and if lines can be written at the depth of its root.

## Contents

* `Layer.ColorsBounded`, `declarations_succeeds_iff`: the appearance of a layer;
* `Layer.SpacingBounded`, `spacingClasses_succeeds_iff`: its distances;
* `Layer.Convertible`, `enter_succeeds_iff`: entering a layer;
* `enterAll_succeeds_iff`: entering one layer after the other;
* `renderNode_succeeds_iff`, `convert_succeeds_iff`: **the designs that can be converted**.
-/

namespace DesignMarkup

/-! ## Colours -/

/-- The channels of a colour can be brought onto the scale to 255. -/
def Color.Bounded (c : Color) : Prop :=
  c.red.Bounded 255 ∧ c.green.Bounded 255 ∧ c.blue.Bounded 255

/-- A colour that may be missing is bounded if it is there. -/
def ColorBounded (color : Option Color) : Prop :=
  ∀ c ∈ color, c.Bounded

/-- The colours that the appearance of a layer is made of are bounded: of its first fill and its first
stroke, if they are solid, and of the drop shadows that are not switched off. -/
structure Layer.ColorsBounded (l : Layer) : Prop where
  fill : ∀ p ∈ l.fills.head?, p.isSolid = true → ColorBounded p.color
  stroke : ∀ p ∈ l.strokes.head?, p.isSolid = true → ColorBounded p.color
  shadows : ∀ e ∈ l.effects, e.isDropShadow = true → e.visible ≠ some false → ColorBounded e.color

namespace Style

theorem channel_succeeds_iff (n : Number) : Succeeds (channel n) ↔ n.Bounded 255 := by
  rw [channel, Number.roundHalfUp_succeeds_iff, Number.bounded_scale]

theorem colorText_succeeds_iff (c : Color) : Succeeds (colorText c) ↔ c.Bounded := by
  unfold colorText Color.Bounded
  rw [succeeds_bind_iff fun r _ => succeeds_bind_iff fun g _ => succeeds_bind_of_succeeds fun b => ?_,
    channel_succeeds_iff, channel_succeeds_iff, channel_succeeds_iff]
  dsimp only
  split
  · exact succeeds_ok _
  · exact succeeds_ok _

theorem colorOrNone_succeeds_iff (color : Option Color) :
    Succeeds (colorOrNone color) ↔ ColorBounded color := by
  cases color with
  | none => exact iff_of_true (succeeds_ok _) fun c hc => by cases hc
  | some c =>
    rw [colorOrNone, colorText_succeeds_iff]
    exact ⟨fun h d hd => Option.mem_some.mp hd ▸ h, fun h => h c rfl⟩

theorem firstFill_succeeds_iff (paints : List Paint) :
    Succeeds (firstFill paints) ↔ ∀ p ∈ paints.head?, p.isSolid = true → ColorBounded p.color := by
  cases paints with
  | nil => exact iff_of_true (succeeds_ok _) fun p hp => by cases hp
  | cons p ps =>
    have hfill : Succeeds (fillText p) ↔ (p.isSolid = true → ColorBounded p.color) := by
      unfold fillText
      split
      · next h =>
        rw [succeeds_map_iff, colorOrNone_succeeds_iff]
        exact ⟨fun hc _ => hc, fun hc => hc h⟩
      · next h => exact iff_of_true (succeeds_ok _) fun hs => absurd hs h
    rw [firstFill, hfill]
    exact ⟨fun h q hq => Option.mem_some.mp hq ▸ h, fun h => h p rfl⟩

end Style

/-- **The appearance of a layer** can be declared exactly if its colours are bounded. -/
theorem Layer.declarations_succeeds_iff (l : Layer) : Succeeds l.declarations ↔ l.ColorsBounded := by
  have hshadows : Succeeds ((l.effects.filter Effect.isShown).mapM Style.shadowText) ↔
      ∀ e ∈ l.effects, e.isDropShadow = true → e.visible ≠ some false → ColorBounded e.color := by
    rw [succeeds_mapM_iff]
    refine ⟨fun h e he hd hv => ?_, fun h e he => ?_⟩
    · have hshown : e ∈ l.effects.filter Effect.isShown :=
        List.mem_filter.mpr ⟨he, by simp [Effect.isShown, hd, hv]⟩
      exact (Style.colorOrNone_succeeds_iff _).mp (succeeds_bind_pure_iff.mp (h e hshown))
    · obtain ⟨hmem, hshown⟩ := List.mem_filter.mp he
      obtain ⟨hd, hv⟩ : e.isDropShadow = true ∧ e.visible ≠ some false := by
        simpa [Effect.isShown] using hshown
      exact succeeds_bind_pure_iff.mpr ((Style.colorOrNone_succeeds_iff _).mpr (h e hmem hd hv))
  unfold Layer.declarations
  rw [succeeds_bind_iff fun background _ => succeeds_bind_iff fun stroke _ => succeeds_bind_pure_iff,
    Style.firstFill_succeeds_iff, Style.firstFill_succeeds_iff, hshadows]
  exact ⟨fun ⟨hf, hs, he⟩ => ⟨hf, hs, he⟩, fun h => ⟨h.fill, h.stroke, h.shadows⟩⟩

/-! ## Distances -/

/-- A measure that may be missing is bounded if it is there. -/
def MeasureBounded (measure : Option Number) : Prop :=
  ∀ n ∈ measure, n.Bounded 1

/-- The distances of a layer are bounded: its padding on every side, and the gap between its children. -/
structure Layer.SpacingBounded (l : Layer) : Prop where
  left : MeasureBounded l.padding.left
  right : MeasureBounded l.padding.right
  top : MeasureBounded l.padding.top
  bottom : MeasureBounded l.padding.bottom
  gap : MeasureBounded l.itemSpacing

namespace Layout

theorem measureBounded_none : MeasureBounded none := by
  intro n hn
  cases hn

theorem measureBounded_some (n : Number) : MeasureBounded (some n) ↔ n.Bounded 1 :=
  ⟨fun h => h n rfl, fun h _ hm => Option.mem_some.mp hm ▸ h⟩

theorem nearestScale_succeeds_iff (measure : Option Number) :
    Succeeds (nearestScale measure) ↔ MeasureBounded measure := by
  cases measure with
  | none => exact iff_of_true (succeeds_ok _) measureBounded_none
  | some n =>
    rw [nearestScale, measureBounded_some]
    split
    · next h => exact iff_of_true (succeeds_ok _) (Number.bounded_of_isZero h)
    · rw [succeeds_map_iff, Number.roundHalfUp_succeeds_iff]

/-- A measure that is missing or zero is bounded. -/
theorem measureBounded_of_not_isSet {measure : Option Number} (h : isSet measure = false) :
    MeasureBounded measure := by
  rw [← nearestScale_succeeds_iff, nearestScale_of_not_isSet h]
  exact succeeds_ok 0

theorem gapClasses_succeeds_iff (l : Layer) :
    Succeeds (gapClasses l) ↔ MeasureBounded l.itemSpacing := by
  unfold gapClasses
  split
  · rw [succeeds_bind_pure_iff, nearestScale_succeeds_iff]
  · next h =>
    exact iff_of_true (succeeds_ok _) (measureBounded_of_not_isSet (Bool.eq_false_iff.mpr h))

theorem sideClasses_succeeds_iff (stem : String) (measure : Option Number) :
    Succeeds (sideClasses stem measure) ↔ MeasureBounded measure := by
  unfold sideClasses
  split
  · rw [succeeds_bind_pure_iff, nearestScale_succeeds_iff]
  · next h =>
    exact iff_of_true (succeeds_ok _) (measureBounded_of_not_isSet (Bool.eq_false_iff.mpr h))

/-- Of equal measures both are bounded or neither is. -/
theorem measureBounded_of_same {a b : Option Number} (h : sameMeasure a b = true) :
    MeasureBounded a ↔ MeasureBounded b := by
  rw [← nearestScale_succeeds_iff, ← nearestScale_succeeds_iff, nearestScale_of_sameMeasure h]

theorem symmetricClasses_succeeds_iff (horizontal vertical : Option Number) :
    Succeeds (symmetricClasses horizontal vertical) ↔
      MeasureBounded horizontal ∧ MeasureBounded vertical := by
  unfold symmetricClasses
  rw [succeeds_bind_iff fun h _ => succeeds_bind_of_succeeds fun v => ?_,
    nearestScale_succeeds_iff, nearestScale_succeeds_iff]
  split
  · exact succeeds_ok _
  · exact succeeds_ok _

/-- The padding has classes exactly if every side is bounded. Where only two sides are rounded, the others
are equal to them. -/
theorem paddingClasses_succeeds_iff (p : Padding) :
    Succeeds (paddingClasses p) ↔
      MeasureBounded p.left ∧ MeasureBounded p.right ∧ MeasureBounded p.top ∧
        MeasureBounded p.bottom := by
  unfold paddingClasses
  split
  · next h =>
    have hunset : p.isSet = false := by simpa using h
    simp only [Padding.isSet, Bool.or_eq_false_iff] at hunset
    obtain ⟨⟨⟨hl, hr⟩, ht⟩, hb⟩ := hunset
    exact iff_of_true (succeeds_ok _) ⟨measureBounded_of_not_isSet hl, measureBounded_of_not_isSet hr,
      measureBounded_of_not_isSet ht, measureBounded_of_not_isSet hb⟩
  · split
    · next h =>
      -- the right and the bottom are not rounded, but equal to what is
      obtain ⟨hh, hv⟩ := Bool.and_eq_true_iff.mp h
      rw [symmetricClasses_succeeds_iff, ← measureBounded_of_same hh, ← measureBounded_of_same hv]
      exact ⟨fun ⟨hl, ht⟩ => ⟨hl, hl, ht, ht⟩, fun ⟨hl, _, ht, _⟩ => ⟨hl, ht⟩⟩
    · rw [succeeds_bind_iff fun left _ => succeeds_bind_iff fun right _ =>
        succeeds_bind_iff fun top _ => succeeds_bind_pure_iff, sideClasses_succeeds_iff,
        sideClasses_succeeds_iff, sideClasses_succeeds_iff, sideClasses_succeeds_iff]

/-- **The distances of a layer** have classes exactly if they are bounded. -/
theorem spacingClasses_succeeds_iff (l : Layer) : Succeeds (spacingClasses l) ↔ l.SpacingBounded := by
  unfold spacingClasses
  rw [succeeds_bind_iff fun padding _ => succeeds_bind_pure_iff, paddingClasses_succeeds_iff,
    gapClasses_succeeds_iff]
  exact ⟨fun ⟨⟨hl, hr, ht, hb⟩, hg⟩ => ⟨hl, hr, ht, hb, hg⟩,
    fun h => ⟨⟨h.left, h.right, h.top, h.bottom⟩, h.gap⟩⟩

/-- The flow of a layer has classes if its gap is bounded. -/
theorem flexClasses_succeeds {l : Layer} (h : MeasureBounded l.itemSpacing) :
    Succeeds (flexClasses l) := by
  unfold flexClasses
  split
  · exact succeeds_ok _
  · exact succeeds_bind_pure_iff.mpr ((gapClasses_succeeds_iff l).mpr h)

end Layout

/-! ## Entering a layer -/

/-- All numbers of a layer that a conversion rounds are bounded. -/
structure Layer.Bounded (l : Layer) : Prop extends l.ColorsBounded, l.SpacingBounded

/-- The classes of a layer in its role: texts have no distances. -/
theorem Layer.roleClasses_succeeds_iff (l : Layer) {r : Role} (hr : r ≠ .text) (own : String) :
    Succeeds (l.roleClasses r own) ↔ l.SpacingBounded := by
  rw [← Layout.spacingClasses_succeeds_iff]
  cases r with
  | text => exact absurd rfl hr
  | container =>
    rw [Layer.roleClasses, succeeds_bind_iff fun spacing hs => (?_ : _ ↔ True), and_iff_left trivial]
    -- the flow rounds the gap once more, which has been rounded by then
    have hgap := ((Layout.spacingClasses_succeeds_iff l).mp ⟨spacing, hs⟩).gap
    exact iff_of_true (succeeds_bind_pure_iff.mpr (Layout.flexClasses_succeeds hgap)) trivial
  | button => exact succeeds_bind_pure_iff
  | image => exact succeeds_bind_pure_iff
  | plain => exact succeeds_bind_pure_iff

/-- **A layer can be entered** exactly if it is a text or its numbers are bounded. -/
theorem Layer.enter_succeeds_iff (options : Options) (l : Layer) (c : Context) :
    SucceedsFrom (l.enter (l.role options)) c ↔ (l.kind ≠ .text → l.Bounded) := by
  by_cases hk : l.kind = .text
  · -- a text rounds nothing
    have hr : l.role options = .text := (l.role_eq_text_iff options).mpr hk
    refine iff_of_true ?_ fun hne => absurd hk hne
    obtain ⟨e, he, -⟩ | ⟨d, -, he⟩ := l.enter_cases (l.role options) c
    · rw [l.roleDeclarations_eq options, if_pos hk] at he
      cases he
    · rw [succeedsFrom_iff_of_run he, hr]
      exact succeeds_mapError_iff.mpr (succeeds_ok _)
  · have hr : l.role options ≠ .text := fun h => hk ((l.role_eq_text_iff options).mp h)
    have hcolors := l.declarations_succeeds_iff
    obtain ⟨e, hd, he⟩ | ⟨d, hd, he⟩ := l.enter_cases (l.role options) c
    · rw [l.roleDeclarations_eq options, if_neg hk] at hd
      rw [hd] at hcolors
      rw [succeedsFrom_iff_of_run he]
      refine iff_of_false (not_succeeds_error _) fun h => ?_
      exact not_succeeds_error _ (hcolors.mpr (h hk).toColorsBounded)
    · rw [l.roleDeclarations_eq options, if_neg hk] at hd
      rw [succeedsFrom_iff_of_run he, succeeds_mapError_iff, l.roleClasses_succeeds_iff hr]
      exact ⟨fun hs _ => ⟨hcolors.mp ⟨d, hd⟩, hs⟩, fun h => (h hk).toSpacingBounded⟩

/-- Layers can be entered one after the other exactly if each of them can. -/
theorem enterAll_succeeds_iff (options : Options) (ls : List Layer) (c : Context) :
    SucceedsFrom (enterAll options ls) c ↔ ∀ l ∈ ls, l.kind ≠ .text → l.Bounded := by
  induction ls generalizing c with
  | nil => exact iff_of_true (succeedsFrom_pure () c) fun l hl => absurd hl List.not_mem_nil
  | cons l ls ih =>
    rw [enterAll, succeedsFrom_bind_iff fun _ c' _ => ih c', l.enter_succeeds_iff, List.forall_mem_cons]

/-! ## Whole conversions -/

theorem checkDepth_succeeds_iff (depth : Int) :
    Succeeds (Html.checkDepth depth) ↔ Html.minDepth ≤ depth ∧ depth < Html.hugeDepth := by
  unfold Html.checkDepth Html.minDepth Html.uncountableDepth Html.hugeDepth
  split
  · exact iff_of_false (not_succeeds_error _) (by omega)
  · split
    · exact iff_of_false (not_succeeds_error _) (by omega)
    · exact iff_of_true (succeeds_ok _) (by omega)

theorem succeedsFrom_effect_iff {α : Type} (x : Conversion α) (c : Context) :
    SucceedsFrom (effect x) c ↔ SucceedsFrom x c :=
  succeedsFrom_bind_of_succeeds fun _ c' => succeedsFrom_pure () c'

/-- **The nodes that can be written**, in whatever context: lines can be written at the depth, and the numbers
of every layer that is shown and is no text are bounded. -/
theorem renderNode_succeeds_iff (options : Options) (n : Node) (depth : Int) (c : Context) :
    SucceedsFrom (renderNode options (some n) depth) c ↔
      (Html.minDepth ≤ depth ∧ depth < Html.hugeDepth) ∧
        ∀ l ∈ n.shown options, l.kind ≠ .text → l.Bounded := by
  have hdepth : SucceedsFrom (entering depth) c ↔ Html.minDepth ≤ depth ∧ depth < Html.hugeDepth := by
    rw [← checkDepth_succeeds_iff, ← succeeds_mapError_iff]
    exact succeedsFrom_iff_of_run rfl
  have helement (c' : Context) : SucceedsFrom (n.toElement options) c' ↔
      ∀ l ∈ n.shown options, l.kind ≠ .text → l.Bounded := by
    rw [← succeedsFrom_effect_iff, n.toElement_effect, enterAll_succeeds_iff]
  -- the lines that come after the walk cannot fail
  rw [renderNode, succeedsFrom_bind_iff fun _ c' _ => ?_, hdepth]
  exact (succeedsFrom_bind_of_succeeds fun e c'' => ⟨_, c'', rfl⟩).trans (helement c')

/-- **The designs that can be converted**, in whatever context: their roots can be written. -/
theorem convert_succeeds_iff (options : Options) (n : Node) (c : Context) :
    SucceedsFrom (convert options (some n)) c ↔
      (Html.minDepth ≤ options.rootDepth ∧ options.rootDepth < Html.hugeDepth) ∧
        ∀ l ∈ n.shown options, l.kind ≠ .text → l.Bounded := by
  rw [← renderNode_succeeds_iff]
  exact succeedsFrom_bind_of_succeeds fun html c' => ⟨_, c', rfl⟩

end DesignMarkup
