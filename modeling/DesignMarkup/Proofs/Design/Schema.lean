import DesignMarkup.Design.Reader
import DesignMarkup.Proofs.Outcome
import Mathlib.Tactic.Tauto

/-!
# `Proofs.Design.Schema` — the data that are read as a design

The reader checks some thirty fields in an order of its own and stops at the first fault. Which data it accepts
can be said without any order: a schema lists what each field may be. Fields that are missing count as null,
lists may be left out or be any value that does not count as present, and elements of lists of paints and
effects that are no objects are passed over.

The reader accepts exactly the data of the schema, and the design that it reads has one node for each object
that the schema looks at as a node, in the same order.

## Contents

* `IsMeasure`, `IsText`, `IsRecord`, `IsListing`: the forms of single fields;
* `IsColor`, `IsPaint`, `IsEffect`, `IsTextStyle`, `IsLayer`: the parts of a node;
* `WellTyped`: **the schema**;
* `readNumber_succeeds_iff`, …, `layerRead_succeeds_iff`: one lemma for each reader;
* `nodeRead_succeeds_iff`: **the data that are read**;
* `nodeObjects`, `walk_read`: the nodes of the data and those of the design.
-/

namespace DesignMarkup

open Json (fieldOrNull)

/-! ## The schema -/

/-- Null, a truth value or a number. -/
inductive IsMeasure : Json → Prop where
  | null : IsMeasure .null
  | bool (b : Bool) : IsMeasure (.bool b)
  | number (n : Number) : IsMeasure (.number n)

/-- Null or a text. -/
inductive IsText : Json → Prop where
  | null : IsText .null
  | string (s : String) : IsText (.string s)

/-- Null or a truth value. -/
inductive IsSwitch : Json → Prop where
  | null : IsSwitch .null
  | bool (b : Bool) : IsSwitch (.bool b)

/-- Null, or an object with such fields. -/
inductive IsRecord (form : List (String × Json) → Prop) : Json → Prop where
  | null : IsRecord form .null
  | object {fields : List (String × Json)} : form fields → IsRecord form (.object fields)

/-- A value that does not count as present, or an array whose objects have such fields. -/
inductive IsListing (form : List (String × Json) → Prop) : Json → Prop where
  | absent {v : Json} : v.isTruthy = false → IsListing form v
  | array {items : List Json} :
    (∀ fields, .object fields ∈ items → form fields) → IsListing form (.array items)

section Parts

variable (fields : List (String × Json))

/-- The fields of a colour: a truth value is no channel. -/
structure IsColor : Prop where
  channels : ∀ name ∈ ["r", "g", "b"], ∃ n, fieldOrNull fields name = .number n
  alpha : IsMeasure (fieldOrNull fields "a")

/-- The fields of a paint. -/
structure IsPaint : Prop where
  type : IsText (fieldOrNull fields "type")
  color : IsRecord IsColor (fieldOrNull fields "color")

/-- The fields of an offset. -/
structure IsOffset : Prop where
  measures : ∀ name ∈ ["x", "y"], IsMeasure (fieldOrNull fields name)

/-- The fields of a blur. -/
structure IsBlur : Prop where
  value : IsMeasure (fieldOrNull fields "value")

/-- The fields of an effect. The blur matters only if the radius is null. -/
structure IsEffect : Prop where
  type : IsText (fieldOrNull fields "type")
  offset : IsRecord IsOffset (fieldOrNull fields "offset")
  visible : IsSwitch (fieldOrNull fields "visible")
  spread : IsMeasure (fieldOrNull fields "spread")
  color : IsRecord IsColor (fieldOrNull fields "color")
  radius : IsMeasure (fieldOrNull fields "radius")
  blur : fieldOrNull fields "radius" = .null → IsRecord IsBlur (fieldOrNull fields "blur")

/-- The fields of a text style. -/
structure IsTextStyle : Prop where
  measures : ∀ name ∈ ["fontSize", "fontWeight", "lineHeightPx", "letterSpacing"],
    IsMeasure (fieldOrNull fields name)
  align : IsText (fieldOrNull fields "textAlignHorizontal")

/-- The fields of a node apart from its children. -/
structure IsLayer : Prop where
  texts : ∀ name ∈ ["type", "name", "id", "layoutMode", "primaryAxisAlignItems",
    "counterAxisAlignItems", "characters"], IsText (fieldOrNull fields name)
  measures : ∀ name ∈ ["strokeWeight", "cornerRadius", "width", "height", "itemSpacing",
    "paddingLeft", "paddingRight", "paddingTop", "paddingBottom"], IsMeasure (fieldOrNull fields name)
  paints : ∀ name ∈ ["fills", "strokes"], IsListing IsPaint (fieldOrNull fields name)
  effects : IsListing IsEffect (fieldOrNull fields "effects")
  textStyle : ∀ style, fieldOrNull fields "style" = .object style → IsTextStyle style

end Parts

/-- **The schema of a node**: an object with the fields of a node, whose children do not count as present or
are an array of nodes. -/
inductive WellTyped : Json → Prop where
  | leaf {fields : List (String × Json)} :
    IsLayer fields → (fieldOrNull fields "children").isTruthy = false → WellTyped (.object fields)
  | parent {fields : List (String × Json)} {items : List Json} :
    IsLayer fields → fieldOrNull fields "children" = .array items → (∀ v ∈ items, WellTyped v) →
    WellTyped (.object fields)

/-! ## Single fields -/

theorem readNumber_succeeds_iff (v : Json) : Succeeds (readNumber v) ↔ IsMeasure v := by
  cases v with
  | null => exact iff_of_true (succeeds_ok _) .null
  | bool b => exact iff_of_true (succeeds_ok _) (.bool b)
  | number n => exact iff_of_true (succeeds_ok _) (.number n)
  | string s => exact iff_of_false (not_succeeds_error _) nofun
  | array items => exact iff_of_false (not_succeeds_error _) nofun
  | object fields => exact iff_of_false (not_succeeds_error _) nofun

theorem readString_succeeds_iff (field : String) (v : Json) :
    Succeeds (readString field v) ↔ IsText v := by
  cases v with
  | null => exact iff_of_true (succeeds_ok _) .null
  | string s => exact iff_of_true (succeeds_ok _) (.string s)
  | bool b => exact iff_of_false (not_succeeds_error _) nofun
  | number n => exact iff_of_false (not_succeeds_error _) nofun
  | array items => exact iff_of_false (not_succeeds_error _) nofun
  | object fields => exact iff_of_false (not_succeeds_error _) nofun

theorem readVisible_succeeds_iff (v : Json) : Succeeds (readVisible v) ↔ IsSwitch v := by
  cases v with
  | null => exact iff_of_true (succeeds_ok _) .null
  | bool b => exact iff_of_true (succeeds_ok _) (.bool b)
  | number n => exact iff_of_false (not_succeeds_error _) nofun
  | string s => exact iff_of_false (not_succeeds_error _) nofun
  | array items => exact iff_of_false (not_succeeds_error _) nofun
  | object fields => exact iff_of_false (not_succeeds_error _) nofun

theorem readOffset_succeeds_iff (v : Json) : Succeeds (readOffset v) ↔ IsMeasure v := by
  unfold readOffset
  rw [succeeds_bind_pure_iff, readNumber_succeeds_iff]

/-- An object is read first and its fields later: the two together are a record, if no fields at all would do
where the object is null. -/
theorem readObject_bind_succeeds_iff {α : Type} {field : String} {v : Json}
    {next : List (String × Json) → Except DataError α} {form : List (String × Json) → Prop}
    {rest : Prop} (hnone : form []) (h : ∀ fields, Succeeds (next fields) ↔ form fields ∧ rest) :
    Succeeds (readObject field v >>= next) ↔ IsRecord form v ∧ rest := by
  cases v with
  | null =>
    have hnull : Succeeds (next []) ↔ IsRecord form .null ∧ rest := by
      rw [h []]
      exact and_congr_left fun _ => iff_of_true hnone .null
    exact hnull
  | object fields =>
    have hobject : Succeeds (next fields) ↔ IsRecord form (.object fields) ∧ rest := by
      rw [h fields]
      exact and_congr_left fun _ => ⟨.object, fun | .object hf => hf⟩
    exact hobject
  | bool b => exact iff_of_false (not_succeeds_error _) fun h => nomatch h.1
  | number n => exact iff_of_false (not_succeeds_error _) fun h => nomatch h.1
  | string s => exact iff_of_false (not_succeeds_error _) fun h => nomatch h.1
  | array items => exact iff_of_false (not_succeeds_error _) fun h => nomatch h.1

theorem mem_objectsOf {items : List Json} {fields : List (String × Json)} :
    fields ∈ objectsOf items ↔ .object fields ∈ items := by
  rw [objectsOf, List.mem_filterMap]
  constructor
  · rintro ⟨v, hv, hfields⟩
    cases v <;> simp at hfields
    exact hfields ▸ hv
  · exact fun h => ⟨.object fields, h, rfl⟩

/-- The objects of a list are read one by one. -/
theorem mapM_objectsOf_succeeds_iff {α : Type} {read : List (String × Json) → Except DataError α}
    {form : List (String × Json) → Prop} (h : ∀ fields, Succeeds (read fields) ↔ form fields)
    (items : List Json) : Succeeds ((objectsOf items).mapM read) ↔ IsListing form (.array items) := by
  have hobjects : Succeeds ((objectsOf items).mapM read) ↔
      ∀ fields, .object fields ∈ items → form fields := by
    rw [succeeds_mapM_iff]
    simp only [mem_objectsOf, h]
  rw [hobjects]
  constructor
  · exact .array
  · intro hlisting
    cases hlisting with
    | array hall => exact hall
    | absent hfalsy =>
      have hnil : items = [] := by simpa [Json.isTruthy] using hfalsy
      rw [hnil]
      exact fun fields hmem => absurd hmem List.not_mem_nil

/-! ## The parts of a node -/

theorem readChannel_succeeds_iff (fields : List (String × Json)) (channel : String) :
    Succeeds (readChannel fields channel) ↔ ∃ n, fieldOrNull fields channel = .number n := by
  unfold readChannel
  cases fieldOrNull fields channel with
  | number n => exact iff_of_true (succeeds_ok n) ⟨n, rfl⟩
  | null => exact iff_of_false (not_succeeds_error _) (by simp)
  | bool b => exact iff_of_false (not_succeeds_error _) (by simp)
  | string s => exact iff_of_false (not_succeeds_error _) (by simp)
  | array items => exact iff_of_false (not_succeeds_error _) (by simp)
  | object inner => exact iff_of_false (not_succeeds_error _) (by simp)

theorem readColor_succeeds_iff (v : Json) : Succeeds (readColor v) ↔ IsRecord IsColor v := by
  cases v with
  | null => exact iff_of_true (succeeds_ok _) .null
  | object fields =>
    have hfields : Succeeds (readColor (.object fields)) ↔ IsColor fields := by
      show Succeeds (readChannel fields "r" >>= _) ↔ _
      rw [succeeds_bind_iff fun red _ => succeeds_bind_iff fun green _ => succeeds_bind_iff fun blue _ =>
        succeeds_bind_pure_iff, readChannel_succeeds_iff, readChannel_succeeds_iff,
        readChannel_succeeds_iff, readNumber_succeeds_iff]
      constructor
      · rintro ⟨hr, hg, hb, ha⟩
        exact ⟨by simp [hr, hg, hb], ha⟩
      · rintro ⟨hchannels, ha⟩
        exact ⟨hchannels "r" (by simp), hchannels "g" (by simp), hchannels "b" (by simp), ha⟩
    rw [hfields]
    exact ⟨.object, fun | .object hf => hf⟩
  | bool b => exact iff_of_false (not_succeeds_error _) nofun
  | number n => exact iff_of_false (not_succeeds_error _) nofun
  | string s => exact iff_of_false (not_succeeds_error _) nofun
  | array items => exact iff_of_false (not_succeeds_error _) nofun

theorem readPaint_succeeds_iff (fields : List (String × Json)) :
    Succeeds (readPaint fields) ↔ IsPaint fields := by
  unfold readPaint
  rw [succeeds_bind_iff fun typeName _ => succeeds_bind_pure_iff, readString_succeeds_iff,
    readColor_succeeds_iff]
  exact ⟨fun ⟨ht, hc⟩ => ⟨ht, hc⟩, fun h => ⟨h.type, h.color⟩⟩

/-- A value that counts as present is a listing only if it is an array. -/
theorem not_isListing {form : List (String × Json) → Prop} {v : Json} (htruthy : v.isTruthy = true)
    (h : ∀ items, v ≠ .array items) : ¬IsListing form v := by
  intro hlisting
  cases hlisting with
  | absent hfalsy =>
    rw [htruthy] at hfalsy
    cases hfalsy
  | array => exact h _ rfl

theorem readPaints_succeeds_iff (v : Json) : Succeeds (readPaints v) ↔ IsListing IsPaint v := by
  unfold readPaints
  split
  · next htruthy =>
    split
    · next items => exact mapM_objectsOf_succeeds_iff readPaint_succeeds_iff items
    · next hv => exact iff_of_false (not_succeeds_error _) (not_isListing htruthy hv)
  · next hfalsy => exact iff_of_true (succeeds_ok _) (.absent (Bool.eq_false_iff.mpr hfalsy))

/-- The radius of an effect is read later than it is found; the two together are a measure, or else the value
of a blur. -/
theorem effectRadius_bind_succeeds_iff {α : Type} {fields : List (String × Json)}
    {next : Json → Except DataError α} {rest : Prop}
    (h : ∀ v, Succeeds (next v) ↔ IsMeasure v ∧ rest) :
    Succeeds (effectRadius fields >>= next) ↔
      (IsMeasure (fieldOrNull fields "radius") ∧
        (fieldOrNull fields "radius" = .null → IsRecord IsBlur (fieldOrNull fields "blur"))) ∧
        rest := by
  unfold effectRadius
  split
  · next hnull =>
    have hnext (blur : List (String × Json)) :
        Succeeds (next (fieldOrNull blur "value")) ↔ IsBlur blur ∧ rest := by
      rw [h]
      exact and_congr_left fun _ => ⟨IsBlur.mk, IsBlur.value⟩
    have hblur : Succeeds (readObject "effect.blur" (fieldOrNull fields "blur") >>=
        fun blur => next (fieldOrNull blur "value")) ↔
        IsRecord IsBlur (fieldOrNull fields "blur") ∧ rest :=
      readObject_bind_succeeds_iff ⟨.null⟩ hnext
    rw [bind_assoc]
    simp only [pure_bind, hblur, hnull, IsMeasure.null, true_and, forall_const]
  · next hradius =>
    have hgiven : fieldOrNull fields "radius" = .null → IsRecord IsBlur (fieldOrNull fields "blur") :=
      fun hnull => absurd hnull hradius
    rw [and_iff_left hgiven]
    exact h _

theorem readEffect_succeeds_iff (fields : List (String × Json)) :
    Succeeds (readEffect fields) ↔ IsEffect fields := by
  unfold readEffect
  -- the offset and the radius are found before the other fields are read, and read between them
  refine (@readObject_bind_succeeds_iff _ _ _ _ IsOffset _ ?_ fun offset =>
    (@effectRadius_bind_succeeds_iff _ _ _ (IsOffset offset ∧
      IsSwitch (fieldOrNull fields "visible") ∧ IsText (fieldOrNull fields "type") ∧
      IsMeasure (fieldOrNull fields "spread") ∧ IsRecord IsColor (fieldOrNull fields "color"))
      fun radius => ?_).trans and_left_comm).trans ?_
  · exact ⟨fun name _ => .null⟩
  · have hoffset : IsOffset offset ↔
        IsMeasure (fieldOrNull offset "x") ∧ IsMeasure (fieldOrNull offset "y") :=
      ⟨fun h => ⟨h.measures "x" (by simp), h.measures "y" (by simp)⟩, fun ⟨hx, hy⟩ => ⟨by simp [hx, hy]⟩⟩
    rw [succeeds_bind_iff fun visible _ => succeeds_bind_iff fun typeName _ => succeeds_bind_iff
      fun offsetX _ => succeeds_bind_iff fun offsetY _ => succeeds_bind_iff fun radius _ =>
      succeeds_bind_iff fun spread _ => succeeds_bind_pure_iff]
    simp only [readVisible_succeeds_iff, readString_succeeds_iff, readOffset_succeeds_iff,
      readColor_succeeds_iff, hoffset]
    tauto
  · constructor
    · rintro ⟨hoffset, ⟨hradius, hblur⟩, hvisible, htype, hspread, hcolor⟩
      exact ⟨htype, hoffset, hvisible, hspread, hcolor, hradius, hblur⟩
    · rintro ⟨htype, hoffset, hvisible, hspread, hcolor, hradius, hblur⟩
      exact ⟨hoffset, ⟨hradius, hblur⟩, hvisible, htype, hspread, hcolor⟩

theorem readEffects_succeeds_iff (v : Json) : Succeeds (readEffects v) ↔ IsListing IsEffect v := by
  unfold readEffects
  split
  · next htruthy =>
    split
    · next items => exact mapM_objectsOf_succeeds_iff readEffect_succeeds_iff items
    · next hv => exact iff_of_false (not_succeeds_error _) (not_isListing htruthy hv)
  · next hfalsy => exact iff_of_true (succeeds_ok _) (.absent (Bool.eq_false_iff.mpr hfalsy))

theorem readTextStyle_succeeds_iff (v : Json) :
    Succeeds (readTextStyle v) ↔ ∀ style, v = .object style → IsTextStyle style := by
  cases v with
  | object fields =>
    have hfields : Succeeds (readTextStyle (.object fields)) ↔ IsTextStyle fields := by
      unfold readTextStyle
      rw [succeeds_bind_iff fun fontSize _ => succeeds_bind_iff fun fontWeight _ =>
        succeeds_bind_iff fun lineHeight _ => succeeds_bind_iff fun letterSpacing _ =>
        succeeds_bind_pure_iff]
      simp only [readNumber_succeeds_iff, readString_succeeds_iff]
      constructor
      · rintro ⟨hsize, hweight, hline, hletter, halign⟩
        exact ⟨by simp [hsize, hweight, hline, hletter], halign⟩
      · rintro ⟨hmeasures, halign⟩
        simpa [halign] using hmeasures
    rw [hfields]
    exact ⟨fun h style hs => Json.object.inj hs ▸ h, fun h => h fields rfl⟩
  | null => exact iff_of_true (succeeds_ok _) fun style hs => by cases hs
  | bool b => exact iff_of_true (succeeds_ok _) fun style hs => by cases hs
  | number n => exact iff_of_true (succeeds_ok _) fun style hs => by cases hs
  | string s => exact iff_of_true (succeeds_ok _) fun style hs => by cases hs
  | array items => exact iff_of_true (succeeds_ok _) fun style hs => by cases hs

theorem readPadding_succeeds_iff (fields : List (String × Json)) :
    Succeeds (readPadding fields) ↔
      ∀ name ∈ ["paddingLeft", "paddingRight", "paddingTop", "paddingBottom"],
        IsMeasure (fieldOrNull fields name) := by
  unfold readPadding
  rw [succeeds_bind_iff fun left _ => succeeds_bind_iff fun right _ => succeeds_bind_iff fun top _ =>
    succeeds_bind_pure_iff]
  simp only [readNumber_succeeds_iff, List.forall_mem_cons, List.not_mem_nil, false_imp_iff,
    implies_true, and_true]

theorem checkChildren_succeeds_iff (nodeName : String) (v : Json) :
    Succeeds (checkChildren nodeName v) ↔ v.isTruthy = false ∨ ∃ items, v = .array items := by
  unfold checkChildren
  split
  · next items => exact iff_of_true (succeeds_ok _) (.inr ⟨items, rfl⟩)
  · next hv =>
    split
    · next htruthy =>
      refine iff_of_false (not_succeeds_error _) ?_
      rintro (hfalsy | ⟨items, rfl⟩)
      · rw [htruthy] at hfalsy
        cases hfalsy
      · exact hv items rfl
    · next hfalsy => exact iff_of_true (succeeds_ok _) (.inl (Bool.eq_false_iff.mpr hfalsy))

theorem headingRead_succeeds_iff (fields : List (String × Json)) :
    Succeeds (Heading.read fields) ↔
      (∀ name ∈ ["type", "name", "id", "layoutMode"], IsText (fieldOrNull fields name)) ∧
        ((fieldOrNull fields "children").isTruthy = false ∨
          ∃ items, fieldOrNull fields "children" = .array items) := by
  unfold Heading.read
  rw [succeeds_bind_iff fun typeName _ => succeeds_bind_iff fun name _ => succeeds_bind_iff
    fun layoutMode _ => (succeeds_bind_iff fun _ _ => succeeds_bind_pure_iff).trans
      (and_congr_left' (checkChildren_succeeds_iff _ _))]
  simp only [readString_succeeds_iff, List.forall_mem_cons, List.not_mem_nil, false_imp_iff,
    implies_true, and_true]
  tauto

theorem layerRead_succeeds_iff (fields : List (String × Json)) (heading : Heading) :
    Succeeds (Layer.read fields heading) ↔
      (∀ name ∈ ["primaryAxisAlignItems", "counterAxisAlignItems", "characters"],
        IsText (fieldOrNull fields name)) ∧
      (∀ name ∈ ["strokeWeight", "cornerRadius", "width", "height", "itemSpacing", "paddingLeft",
        "paddingRight", "paddingTop", "paddingBottom"], IsMeasure (fieldOrNull fields name)) ∧
      (∀ name ∈ ["fills", "strokes"], IsListing IsPaint (fieldOrNull fields name)) ∧
      IsListing IsEffect (fieldOrNull fields "effects") ∧
      ∀ style, fieldOrNull fields "style" = .object style → IsTextStyle style := by
  unfold Layer.read
  rw [succeeds_bind_iff fun fills _ => succeeds_bind_iff fun strokes _ => succeeds_bind_iff
    fun strokeWeight _ => succeeds_bind_iff fun effects _ => succeeds_bind_iff fun cornerRadius _ =>
    succeeds_bind_iff fun width _ => succeeds_bind_iff fun height _ => succeeds_bind_iff
    fun primaryAlign _ => succeeds_bind_iff fun counterAlign _ => succeeds_bind_iff
    fun itemSpacing _ => succeeds_bind_iff fun padding _ => succeeds_bind_iff fun characters _ =>
    succeeds_bind_pure_iff]
  simp only [readPaints_succeeds_iff, readEffects_succeeds_iff, readNumber_succeeds_iff,
    readString_succeeds_iff, readPadding_succeeds_iff, readTextStyle_succeeds_iff,
    List.forall_mem_cons, List.not_mem_nil, false_imp_iff, implies_true, and_true]
  tauto

/-! ## Nodes -/

/-- The heading and the layer of a node together. -/
theorem isLayer_iff (fields : List (String × Json)) (heading : Heading) :
    (∀ name ∈ ["type", "name", "id", "layoutMode"], IsText (fieldOrNull fields name)) ∧
      Succeeds (Layer.read fields heading) ↔ IsLayer fields := by
  rw [layerRead_succeeds_iff]
  constructor
  · rintro ⟨htexts, htexts', hmeasures, hpaints, heffects, hstyle⟩
    refine ⟨fun name hname => ?_, hmeasures, hpaints, heffects, hstyle⟩
    by_cases hfirst : name ∈ ["type", "name", "id", "layoutMode"]
    · exact htexts name hfirst
    · refine htexts' name ?_
      simp only [List.mem_cons, List.not_mem_nil, or_false] at hname hfirst ⊢
      tauto
  · rintro ⟨htexts, hmeasures, hpaints, heffects, hstyle⟩
    exact ⟨fun name hname => htexts name (List.mem_append_left _ hname),
      fun name hname => htexts name
        (List.mem_append_right ["type", "name", "id", "layoutMode"] hname),
      hmeasures, hpaints, heffects, hstyle⟩

/-- The children of a well-typed node, if they are an array, are well typed. -/
theorem wellTyped_object_iff (fields : List (String × Json)) :
    WellTyped (.object fields) ↔ IsLayer fields ∧
      ((fieldOrNull fields "children").isTruthy = false ∨
        ∃ items, fieldOrNull fields "children" = .array items) ∧
      ∀ items, fieldOrNull fields "children" = .array items → ∀ v ∈ items, WellTyped v := by
  constructor
  · intro h
    cases h with
    | leaf hlayer hfalsy =>
      refine ⟨hlayer, .inl hfalsy, fun items hitems v hv => ?_⟩
      have hnil : items = [] := by simpa [hitems, Json.isTruthy] using hfalsy
      rw [hnil] at hv
      exact absurd hv List.not_mem_nil
    | parent hlayer harray hall =>
      refine ⟨hlayer, .inr ⟨_, harray⟩, fun items hitems => ?_⟩
      obtain rfl := Json.array.inj (harray.symm.trans hitems)
      exact hall
  · rintro ⟨hlayer, hfalsy | ⟨items, harray⟩, hall⟩
    · exact .leaf hlayer hfalsy
    · exact .parent hlayer harray (hall items harray)

mutual

/-- **The data that are read** are the well-typed ones. -/
theorem nodeRead_succeeds_iff (v : Json) : Succeeds (Node.read v) ↔ WellTyped v := by
  match v with
  | .object fields =>
    -- the heading and the rest of a layer are read before and after the children
    rw [Node.read, wellTyped_object_iff, ← readChildren_succeeds_iff fields]
    constructor
    · rintro ⟨n, hn⟩
      obtain ⟨heading, hheading, hn⟩ := bind_eq_ok.mp hn
      obtain ⟨children, hchildren, hn⟩ := bind_eq_ok.mp hn
      obtain ⟨layer, hlayer, -⟩ := bind_eq_ok.mp hn
      obtain ⟨htexts, hshape⟩ := (headingRead_succeeds_iff fields).mp ⟨heading, hheading⟩
      exact ⟨(isLayer_iff fields heading).mp ⟨htexts, layer, hlayer⟩, hshape, children, hchildren⟩
    · rintro ⟨hlayer, hshape, children, hchildren⟩
      obtain ⟨heading, hheading⟩ := (headingRead_succeeds_iff fields).mpr
        ⟨((isLayer_iff fields ⟨"", "", none, ""⟩).mpr hlayer).1, hshape⟩
      obtain ⟨-, layer, hread⟩ := (isLayer_iff fields heading).mpr hlayer
      refine ⟨.node layer children, bind_eq_ok.mpr ⟨heading, hheading, ?_⟩⟩
      exact bind_eq_ok.mpr ⟨children, hchildren, bind_eq_ok.mpr ⟨layer, hread, rfl⟩⟩
  | .null => exact iff_of_false (not_succeeds_error _) nofun
  | .bool b => exact iff_of_false (not_succeeds_error _) nofun
  | .number n => exact iff_of_false (not_succeeds_error _) nofun
  | .string s => exact iff_of_false (not_succeeds_error _) nofun
  | .array items => exact iff_of_false (not_succeeds_error _) nofun

theorem readChildren_succeeds_iff (fields : List (String × Json)) :
    Succeeds (readChildren fields) ↔
      ∀ items, fieldOrNull fields "children" = .array items → ∀ v ∈ items, WellTyped v := by
  match fields with
  | [] => exact iff_of_true (succeeds_ok _) fun items hitems => by cases hitems
  | (name, v) :: rest =>
    unfold readChildren
    by_cases hname : name = "children"
    · have hfield : fieldOrNull ((name, v) :: rest) "children" = v := by
        simp [fieldOrNull, Entries.get?, hname]
      rw [if_pos hname, hfield]
      match v with
      | .array items =>
        rw [readNodes_succeeds_iff items]
        exact ⟨fun h _ hitems => Json.array.inj hitems ▸ h, fun h => h items rfl⟩
      | .null => exact iff_of_true (succeeds_ok _) nofun
      | .bool b => exact iff_of_true (succeeds_ok _) nofun
      | .number n => exact iff_of_true (succeeds_ok _) nofun
      | .string s => exact iff_of_true (succeeds_ok _) nofun
      | .object fields => exact iff_of_true (succeeds_ok _) nofun
    · have hfield : fieldOrNull ((name, v) :: rest) "children" = fieldOrNull rest "children" := by
        simp [fieldOrNull, Entries.get?, hname]
      rw [if_neg hname, hfield]
      exact readChildren_succeeds_iff rest

theorem readNodes_succeeds_iff (items : List Json) :
    Succeeds (readNodes items) ↔ ∀ v ∈ items, WellTyped v := by
  match items with
  | [] => exact iff_of_true (succeeds_ok _) fun v hv => absurd hv List.not_mem_nil
  | v :: rest =>
    rw [readNodes, succeeds_bind_iff fun n _ => succeeds_bind_pure_iff, nodeRead_succeeds_iff v,
      readNodes_succeeds_iff rest, List.forall_mem_cons]

end

/-- Whether data are well typed is found out by reading them. -/
instance (v : Json) : Decidable (WellTyped v) :=
  match h : Node.read v with
  | .ok n => isTrue ((nodeRead_succeeds_iff v).mp ⟨n, h⟩)
  | .error _ => isFalse fun hv => by
    obtain ⟨n, hn⟩ := (nodeRead_succeeds_iff v).mpr hv
    rw [h] at hn
    cases hn

/-- A radius that is a truth value is given, so the blur does not matter. -/
example : WellTyped (.object [("effects", .array [.string "", .object
    [("radius", .bool true), ("blur", .string "6")]])]) := by
  decide +kernel

example : ¬WellTyped (.object [("effects", .array [.string "", .object
    [("radius", .null), ("blur", .string "6")]])]) := by
  decide +kernel

/-! ## The nodes of the data -/

mutual

/-- The objects that stand for nodes in a value: the value itself and those among its children, parents before
children. -/
def Json.nodeObjects : Json → List (List (String × Json))
  | .object fields => fields :: Json.childObjects fields
  | _ => []

/-- The objects that stand for nodes in the field `children`, if it is an array. -/
def Json.childObjects : List (String × Json) → List (List (String × Json))
  | [] => []
  | (name, v) :: rest =>
    if name = "children" then
      match v with
      | .array items => Json.objectsAmong items
      | _ => []
    else Json.childObjects rest

/-- The objects that stand for nodes in several values. -/
def Json.objectsAmong : List Json → List (List (String × Json))
  | [] => []
  | v :: rest => v.nodeObjects ++ Json.objectsAmong rest

end

/-- A text, empty for a value that is none. -/
def Json.textOrEmpty : Json → String
  | .string s => s
  | _ => ""

/-- The type, the name and the id that the fields of a node give. -/
def labelOf (fields : List (String × Json)) : String × String × String :=
  ((fieldOrNull fields "type").textOrEmpty, (fieldOrNull fields "name").textOrEmpty,
    (fieldOrNull fields "id").textOrEmpty)

/-- The type, the name and the id of a layer. -/
def Layer.label (l : Layer) : String × String × String :=
  (l.typeName, l.name, l.id)

theorem getD_of_readString {field : String} {v : Json} {s : Option String}
    (h : readString field v = .ok s) : s.getD "" = v.textOrEmpty := by
  cases v with
  | null => cases h; rfl
  | string t => cases h; rfl
  | bool b => cases h
  | number n => cases h
  | array items => cases h
  | object fields => cases h

/-- The label of a layer is that of its heading: no other field enters it. -/
theorem label_of_layerRead {fields : List (String × Json)} {heading : Heading} {l : Layer}
    (h : Layer.read fields heading = .ok l) :
    l.label = (heading.typeName, heading.name, heading.id) := by
  unfold Layer.read at h
  repeat obtain ⟨_, -, h⟩ := bind_eq_ok.mp h
  obtain rfl := pure_eq_ok.mp h
  rfl

/-- The label of a layer is that of its fields. -/
theorem label_of_read {fields : List (String × Json)} {heading : Heading} {l : Layer}
    (h : Heading.read fields = .ok heading) (hl : Layer.read fields heading = .ok l) :
    l.label = labelOf fields := by
  obtain ⟨typeName, htype, h⟩ := bind_eq_ok.mp h
  obtain ⟨name, hname, h⟩ := bind_eq_ok.mp h
  obtain ⟨layoutMode, -, h⟩ := bind_eq_ok.mp h
  obtain ⟨_, -, h⟩ := bind_eq_ok.mp h
  obtain ⟨id, hid, h⟩ := bind_eq_ok.mp h
  obtain rfl := pure_eq_ok.mp h
  rw [label_of_layerRead hl, labelOf, getD_of_readString htype, getD_of_readString hname,
    getD_of_readString hid]

mutual

/-- **The design has the nodes of the data**, in the same order. -/
theorem walk_read (v : Json) {n : Node} (h : Node.read v = .ok n) :
    n.walk.map Layer.label = v.nodeObjects.map labelOf := by
  match v with
  | .object fields =>
    obtain ⟨heading, hheading, h⟩ := bind_eq_ok.mp h
    obtain ⟨children, hchildren, h⟩ := bind_eq_ok.mp h
    obtain ⟨layer, hlayer, h⟩ := bind_eq_ok.mp h
    obtain rfl := pure_eq_ok.mp h
    rw [Node.walk, Json.nodeObjects, List.map_cons, List.map_cons, label_of_read hheading hlayer,
      walk_readChildren fields hchildren]
  | .null => cases h
  | .bool b => cases h
  | .number m => cases h
  | .string s => cases h
  | .array items => cases h

theorem walk_readChildren (fields : List (String × Json)) {ns : List Node}
    (h : readChildren fields = .ok ns) :
    (Node.walkAll ns).map Layer.label = (Json.childObjects fields).map labelOf := by
  match fields with
  | [] =>
    cases h
    rfl
  | (name, v) :: rest =>
    unfold readChildren at h
    unfold Json.childObjects
    by_cases hname : name = "children"
    · rw [if_pos hname] at h ⊢
      match v with
      | .array items => exact walk_readNodes items h
      | .null => cases h; rfl
      | .bool b => cases h; rfl
      | .number m => cases h; rfl
      | .string s => cases h; rfl
      | .object inner => cases h; rfl
    · rw [if_neg hname] at h ⊢
      exact walk_readChildren rest h

theorem walk_readNodes (items : List Json) {ns : List Node} (h : readNodes items = .ok ns) :
    (Node.walkAll ns).map Layer.label = (Json.objectsAmong items).map labelOf := by
  match items with
  | [] =>
    cases h
    rfl
  | v :: rest =>
    obtain ⟨n, hn, h⟩ := bind_eq_ok.mp h
    obtain ⟨ns, hns, h⟩ := bind_eq_ok.mp h
    obtain rfl := pure_eq_ok.mp h
    rw [Node.walkAll, Json.objectsAmong, List.map_append, List.map_append, walk_read v hn,
      walk_readNodes rest hns]

end

/-- **The reader accepts exactly its schema.** Data are read as a design if they are well typed, and refused
with an error about the data if they are not; and the design has one node for each object of the data that
stands for one, with its type, its name and its id, in the same order. -/
theorem read_iff_wellTyped (v : Json) :
    ((∃ n, Node.read v = .ok n) ↔ WellTyped v) ∧
      (¬WellTyped v ↔ ∃ e : DataError, Node.read v = .error e) ∧
      ∀ n, Node.read v = .ok n → n.walk.map Layer.label = v.nodeObjects.map labelOf := by
  have hread := nodeRead_succeeds_iff v
  refine ⟨hread, ?_, fun n hn => walk_read v hn⟩
  rw [← hread]
  cases hv : Node.read v with
  | ok n => exact iff_of_false (not_not_intro (succeeds_ok n)) (by rintro ⟨e, he⟩; cases he)
  | error e => exact iff_of_true (not_succeeds_error e) ⟨e, rfl⟩

end DesignMarkup
