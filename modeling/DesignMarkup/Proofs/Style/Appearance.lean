import DesignMarkup.Design.Reader
import DesignMarkup.Proofs.Conversion.Depiction
import DesignMarkup.Proofs.Style.Slots

/-!
# `Proofs.Style.Appearance` — which properties a layer declares

A property is declared exactly if its slot has a value, so for each property there is one condition on the layer.
For shadows, corners and size it is that their source is there. For the background and the border it is that
the first paint is solid, whether or not it has a colour: without one the text of a missing colour is declared.

## Contents

* `Colored`, `Colorless`, `IsPlaceholder`, `FillOf`, `fillOf_firstFill`: **the text of a first paint**;
* `Layer.ShapeDeclared`, `Layer.declarations_shape`: **what is declared apart from paint**;
* `Layer.PaintDeclared`, `Layer.PaintWritten`, `Layer.paint_declarations`: what is declared of paint;
* `declarations_painted_iff`: **when the appearance is declared as it should be**.
-/

namespace DesignMarkup

namespace Style

/-! ## Paints -/

/-- The first of several paints is solid and has a colour. -/
def Colored (paints : List Paint) : Prop :=
  ∃ p ∈ paints.head?, p.isSolid = true ∧ p.color ≠ none

/-- The first of several paints is solid, but has no colour. -/
def Colorless (paints : List Paint) : Prop :=
  ∃ p ∈ paints.head?, p.isSolid = true ∧ p.color = none

/-- A value that ends in the text of a missing colour. -/
def IsPlaceholder (value : String) : Prop :=
  "transparent".toList <:+ value.toList

/-- The text of a first paint, if it has any. -/
inductive FillOf (paints : List Paint) : Option String → Prop where
  | nothing (hcolored : ¬Colored paints) (hcolorless : ¬Colorless paints) : FillOf paints none
  | missing (hcolorless : Colorless paints) : FillOf paints (some "transparent")
  | color {text : String} (hcolored : Colored paints) (hlast : text.toList.getLast? = some ')') :
    FillOf paints (some text)

section Paints

variable {paints : List Paint}

theorem not_colored_of_colorless (h : Colorless paints) : ¬Colored paints := by
  rintro ⟨p, hp, -, hcolor⟩
  obtain ⟨q, hq, -, hnone⟩ := h
  exact hcolor (Option.mem_unique hp hq ▸ hnone)

/-- The text of a colour ends in a parenthesis. -/
theorem getLast?_colorText {c : Color} {s : String} (h : colorText c = .ok s) :
    s.toList.getLast? = some ')' := by
  have hparen (t : String) : (t ++ ")").toList.getLast? = some ')' := by
    rw [String.toList_append]
    exact List.getLast?_concat
  unfold colorText at h
  obtain ⟨r, -, h⟩ := bind_eq_ok.mp h
  obtain ⟨g, -, h⟩ := bind_eq_ok.mp h
  obtain ⟨b, -, h⟩ := bind_eq_ok.mp h
  dsimp only at h
  split at h
  · rw [← pure_eq_ok.mp h]
    exact hparen _
  · rw [← pure_eq_ok.mp h]
    exact hparen _

/-- **The text of a first paint**: of a solid one its colour, or that of a missing colour. -/
theorem fillOf_firstFill {fill : Option String} (h : firstFill paints = .ok fill) : FillOf paints fill := by
  cases paints with
  | nil =>
    rw [← Except.ok.inj h]
    exact .nothing (by rintro ⟨p, hp, -⟩; cases hp) (by rintro ⟨p, hp, -⟩; cases hp)
  | cons p rest =>
    rw [firstFill, fillText] at h
    split at h
    · next hsolid =>
      rw [map_eq_pure_bind] at h
      obtain ⟨text, htext, h⟩ := bind_eq_ok.mp h
      rw [← pure_eq_ok.mp h]
      cases hcolor : p.color with
      | none =>
        rw [hcolor] at htext
        rw [← Except.ok.inj htext]
        exact .missing ⟨p, rfl, hsolid, hcolor⟩
      | some c =>
        rw [hcolor] at htext
        exact .color ⟨p, rfl, hsolid, by rw [hcolor]; exact Option.some_ne_none c⟩ (getLast?_colorText htext)
    · next hsolid =>
      rw [← Except.ok.inj h]
      exact .nothing (by rintro ⟨q, hq, hq', -⟩; exact hsolid (Option.mem_some.mp hq ▸ hq'))
        (by rintro ⟨q, hq, hq', -⟩; exact hsolid (Option.mem_some.mp hq ▸ hq'))

/-- A value that ends in a parenthesis is no placeholder. -/
theorem not_isPlaceholder_of_getLast? {value : String} (h : value.toList.getLast? = some ')') :
    ¬IsPlaceholder value := by
  rintro ⟨front, hfront⟩
  have hlast : "transparent".toList.getLast? = some 't' := by decide
  rw [← hfront, List.getLast?_append, hlast] at h
  cases h

/-- A value is a placeholder exactly if what it ends in is one. -/
theorem isPlaceholder_append (front : String) {text : String} (h : FillOf paints (some text)) :
    IsPlaceholder (front ++ text) ↔ Colorless paints := by
  cases h with
  | missing hcolorless =>
    refine iff_of_true ?_ hcolorless
    rw [IsPlaceholder, String.toList_append]
    exact List.suffix_append _ _
  | color hcolored hlast =>
    refine iff_of_false (not_isPlaceholder_of_getLast? ?_) fun h => not_colored_of_colorless h hcolored
    rw [String.toList_append, List.getLast?_append, hlast]
    rfl

/-- A first paint has a text exactly if it is solid. -/
theorem FillOf.isSome_iff {fill : Option String} (h : FillOf paints fill) :
    fill.isSome = true ↔ Colored paints ∨ Colorless paints := by
  cases h with
  | nothing hcolored hcolorless => exact iff_of_false nofun (not_or.mpr ⟨hcolored, hcolorless⟩)
  | missing hcolorless => exact iff_of_true rfl (.inr hcolorless)
  | color hcolored => exact iff_of_true rfl (.inl hcolored)

end Paints

end Style

open Style

namespace Layer

variable {l : Layer} {ds : Declarations}

/-! ## Shadows, corners and size -/

/-- **What is declared apart from paint** is declared as it should be: the properties are in order, the shadows
are those of the drop shadows that are not hidden, one after the other, and a length is there exactly if it is
given and not zero. -/
structure ShapeDeclared (l : Layer) (ds : Declarations) : Prop where
  order : (Entries.keys ds).Sublist ["backgroundColor", "border", "boxShadow", "borderRadius", "width", "height"]
  shadow : "boxShadow" ∈ Entries.keys ds ↔ ∃ e ∈ l.effects, e.isDropShadow = true ∧ e.visible ≠ some false
  shadows : ∀ value, ("boxShadow", value) ∈ ds → ∃ texts,
    List.Forall₂ (fun e text => shadowText e = .ok text) (l.effects.filter Effect.isShown) texts ∧
      value = ", ".intercalate texts
  corners : "borderRadius" ∈ Entries.keys ds ↔ isSet l.cornerRadius = true
  width : "width" ∈ Entries.keys ds ↔ isSet l.width = true
  height : "height" ∈ Entries.keys ds ↔ isSet l.height = true

theorem declarations_shape (h : l.declarations = .ok ds) : l.ShapeDeclared ds := by
  obtain ⟨background, stroke, shadows, -, -, hshadows, rfl⟩ := declarations_eq_declareAll h
  have htexts := forall₂_of_mapM_ok hshadows
  have hlength (n : Option Number) : (∃ value, some value = length n) ↔ isSet n = true := by
    rw [← isSome_length, Option.isSome_iff_exists]
    exact exists_congr fun value => eq_comm
  have hshown : shadows ≠ [] ↔ ∃ e ∈ l.effects, e.isDropShadow = true ∧ e.visible ≠ some false := by
    rw [← List.length_pos_iff, ← htexts.length_eq, List.length_pos_iff, Ne, List.filter_eq_nil_iff]
    simp [Effect.isShown]
  have hslot (value : String) : ("boxShadow", value) ∈ declareAll (l.appearanceSlots background stroke shadows) ↔
      shadows ≠ [] ∧ ", ".intercalate shadows = value := by
    rw [← shadowsText_eq_some_iff, @eq_comm _ (shadowsText _)]
    simp [mem_declareAll, appearanceSlots]
  constructor
  case order => exact keys_declareAll_sublist _
  case shadow =>
    rw [mem_keys_iff, ← hshown]
    simp [hslot]
  case shadows =>
    intro value hvalue
    exact ⟨shadows, htexts, ((hslot value).mp hvalue).2.symm⟩
  case corners => simpa [mem_keys_iff, mem_declareAll, appearanceSlots] using hlength l.cornerRadius
  case width => simpa [mem_keys_iff, mem_declareAll, appearanceSlots] using hlength l.width
  case height => simpa [mem_keys_iff, mem_declareAll, appearanceSlots] using hlength l.height

/-! ## Paint -/

/-- **What is declared of paint** is declared as it should be: a background for a first fill that is solid and has
a colour, a border for such a first stroke of a weight that is not zero, and neither with the text of a missing
colour. -/
structure PaintDeclared (l : Layer) (ds : Declarations) : Prop where
  background : "backgroundColor" ∈ Entries.keys ds ↔ Colored l.fills
  border : "border" ∈ Entries.keys ds ↔ Colored l.strokes ∧ isSet l.strokeWeight = true
  painted : ∀ property ∈ ["backgroundColor", "border"], ∀ value, (property, value) ∈ ds → ¬IsPlaceholder value

/-- **What is declared of paint in any case**: a background for a first fill that is solid, with the text of a missing
colour if it has none; and a border for such a first stroke of a weight that is not zero. -/
structure PaintWritten (l : Layer) (ds : Declarations) : Prop where
  background : "backgroundColor" ∈ Entries.keys ds ↔ Colored l.fills ∨ Colorless l.fills
  border : "border" ∈ Entries.keys ds ↔ (Colored l.strokes ∨ Colorless l.strokes) ∧ isSet l.strokeWeight = true
  backgroundPlaceholder : (∃ value, ("backgroundColor", value) ∈ ds ∧ IsPlaceholder value) ↔ Colorless l.fills
  borderPlaceholder : (∃ value, ("border", value) ∈ ds ∧ IsPlaceholder value) ↔
    Colorless l.strokes ∧ isSet l.strokeWeight = true

theorem paint_declarations (h : l.declarations = .ok ds) : l.PaintWritten ds := by
  obtain ⟨background, stroke, shadows, hfirst, hfirst', -, rfl⟩ := declarations_eq_declareAll h
  have hfill := fillOf_firstFill hfirst
  have hstroke := fillOf_firstFill hfirst'
  have hbackground (value : String) :
      ("backgroundColor", value) ∈ declareAll (l.appearanceSlots background stroke shadows) ↔
        background = some value := by
    rw [@eq_comm _ background]
    simp [mem_declareAll, appearanceSlots]
  have hborder (value : String) : ("border", value) ∈ declareAll (l.appearanceSlots background stroke shadows) ↔
      ∃ color width,
        stroke = some color ∧ length l.strokeWeight = some width ∧ width ++ " solid " ++ color = value := by
    rw [← borderText_eq_some_iff, @eq_comm _ (borderText _ _)]
    simp [mem_declareAll, appearanceSlots]
  have hweight : isSet l.strokeWeight = true ↔ ∃ width, length l.strokeWeight = some width := by
    rw [← isSome_length, Option.isSome_iff_exists]
  constructor
  case background =>
    rw [← hfill.isSome_iff, mem_keys_iff, Option.isSome_iff_exists]
    exact exists_congr hbackground
  case border =>
    rw [← hstroke.isSome_iff, hweight, mem_keys_iff, Option.isSome_iff_exists]
    constructor
    · rintro ⟨value, hvalue⟩
      obtain ⟨color, width, hcolor, hwidth, -⟩ := (hborder value).mp hvalue
      exact ⟨⟨color, hcolor⟩, width, hwidth⟩
    · rintro ⟨⟨color, hcolor⟩, width, hwidth⟩
      exact ⟨_, (hborder _).mpr ⟨color, width, hcolor, hwidth, rfl⟩⟩
  case backgroundPlaceholder =>
    constructor
    · rintro ⟨value, hvalue, hplaceholder⟩
      obtain rfl := (hbackground value).mp hvalue
      exact (isPlaceholder_append "" hfill).mp (by rwa [String.empty_append])
    · intro hcolorless
      obtain ⟨value, rfl⟩ := Option.isSome_iff_exists.mp (hfill.isSome_iff.mpr (.inr hcolorless))
      have hplaceholder := (isPlaceholder_append "" hfill).mpr hcolorless
      exact ⟨value, (hbackground value).mpr rfl, by rwa [String.empty_append] at hplaceholder⟩
  case borderPlaceholder =>
    rw [hweight]
    constructor
    · rintro ⟨value, hvalue, hplaceholder⟩
      obtain ⟨color, width, rfl, hwidth, rfl⟩ := (hborder value).mp hvalue
      exact ⟨(isPlaceholder_append _ hstroke).mp hplaceholder, width, hwidth⟩
    · rintro ⟨hcolorless, width, hwidth⟩
      obtain ⟨color, rfl⟩ := Option.isSome_iff_exists.mp (hstroke.isSome_iff.mpr (.inr hcolorless))
      exact ⟨_, (hborder _).mpr ⟨color, width, rfl, hwidth, rfl⟩, (isPlaceholder_append _ hstroke).mpr hcolorless⟩

end Layer

/-- **When the appearance is declared as it should be.** Apart from paint it always is. The paint is declared as it
should be exactly if the first fill is not solid without a colour, and the first stroke is not either, unless it
has no weight. Without a colour a background, or a border, is declared all the same, and the text of a missing colour
with it. -/
theorem declarations_painted_iff {l : Layer} {ds : Declarations} (h : l.declarations = .ok ds) :
    l.ShapeDeclared ds ∧ l.PaintWritten ds ∧
    (l.PaintDeclared ds ↔ ¬Colorless l.fills ∧ ¬(Colorless l.strokes ∧ isSet l.strokeWeight = true)) := by
  have hpaint := Layer.paint_declarations h
  refine ⟨Layer.declarations_shape h, hpaint, fun hdeclared => ⟨fun hfill => ?_, fun hstroke => ?_⟩,
    fun ⟨hfill, hstroke⟩ => ⟨?_, ?_, fun property hproperty value hvalue hplaceholder => ?_⟩⟩
  · obtain ⟨value, hvalue, hplaceholder⟩ := hpaint.backgroundPlaceholder.mpr hfill
    exact hdeclared.painted _ List.mem_cons_self value hvalue hplaceholder
  · obtain ⟨value, hvalue, hplaceholder⟩ := hpaint.borderPlaceholder.mpr hstroke
    exact hdeclared.painted _ (List.mem_cons_of_mem _ List.mem_cons_self) value hvalue hplaceholder
  · rw [hpaint.background, or_iff_left hfill]
  · rw [hpaint.border, or_and_right, or_iff_left hstroke]
  · rcases List.mem_pair.mp hproperty with rfl | rfl
    · exact hfill (hpaint.backgroundPlaceholder.mp ⟨value, hvalue, hplaceholder⟩)
    · exact hstroke (hpaint.borderPlaceholder.mp ⟨value, hvalue, hplaceholder⟩)

/-! ### A card -/

/-- A card with a ground, a line around it, two shadows of which one is hidden, and a width. -/
def paintedCard : Layer :=
  { Layer.bare .frame "Card" none with
    fills := [⟨"SOLID", some ⟨.int 1, .int 1, .int 1, .int 1⟩⟩]
    strokes := [⟨"SOLID", some ⟨.int 0, .int 0, .int 0, .double Binary64.half⟩⟩]
    strokeWeight := some (.int 2)
    effects := [⟨"DROP_SHADOW", some false, .int 0, .int 1, .int 2, .int 0, none⟩,
      ⟨"DROP_SHADOW", none, .int 0, .int 4, .int 8, .int 0, some ⟨.int 0, .int 0, .int 0, .int 1⟩⟩]
    cornerRadius := some (.int 0)
    width := some (.int 320) }

/-- What it declares. -/
def paintedDeclarations : Declarations :=
  [("backgroundColor", "rgb(255, 255, 255)"), ("border", "2px solid rgba(0, 0, 0, 0.5)"),
    ("boxShadow", "0px 4px 8px 0px rgb(0, 0, 0)"), ("width", "320px")]

theorem paintedCard_painted :
    paintedCard.declarations = .ok paintedDeclarations ∧ paintedCard.ShapeDeclared paintedDeclarations ∧
      paintedCard.PaintDeclared paintedDeclarations := by
  have hdeclared : paintedCard.declarations = .ok paintedDeclarations := by decide +kernel
  have hfill : ¬Colorless paintedCard.fills := by
    rintro ⟨p, hp, -, hcolor⟩
    rw [← Option.mem_some.mp hp] at hcolor
    cases hcolor
  have hstroke : ¬Colorless paintedCard.strokes := by
    rintro ⟨p, hp, -, hcolor⟩
    rw [← Option.mem_some.mp hp] at hcolor
    cases hcolor
  obtain ⟨hshape, -, hpaint⟩ := declarations_painted_iff hdeclared
  exact ⟨hdeclared, hshape, hpaint.mpr ⟨hfill, fun h => hstroke h.1⟩⟩

/-- A frame whose fill is solid and gives no colour. -/
def colorlessFill : Json :=
  .object [("type", .string "FRAME"), ("name", .string "Card"),
    ("fills", .array [.object [("type", .string "SOLID")]])]

/-- **A placeholder for a missing colour.** The frame is read, and its background is declared as the text of a missing
colour. -/
theorem colorlessFill_placeholder :
    ∃ l ds, Node.read colorlessFill = .ok (.node l []) ∧ l.declarations = .ok ds ∧
      ds = [("backgroundColor", "transparent")] ∧ ¬l.PaintDeclared ds := by
  have hread : (Node.read colorlessFill).toOption.map (fun n => (n.children.isEmpty, n.layer.declarations)) =
      some (true, .ok [("backgroundColor", "transparent")]) := by
    decide +kernel
  cases hnode : Node.read colorlessFill with
  | error e =>
    rw [hnode] at hread
    cases hread
  | ok n =>
    obtain ⟨l, children⟩ := n
    rw [hnode] at hread
    obtain ⟨hleaf, hdeclared⟩ := Prod.mk.inj (Option.some.inj hread)
    obtain rfl : children = [] := List.isEmpty_iff.mp hleaf
    refine ⟨l, _, rfl, hdeclared, rfl, fun hpaint => ?_⟩
    exact hpaint.painted _ List.mem_cons_self _ List.mem_cons_self ⟨[], rfl⟩

end DesignMarkup
