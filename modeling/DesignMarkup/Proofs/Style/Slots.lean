import DesignMarkup.Entries
import DesignMarkup.Proofs.Outcome
import DesignMarkup.Style

/-!
# `Proofs.Style.Slots` — declarations as slots that may be empty

What a layer declares is put together from slots, one for each property, in a fixed order. A slot without a value
is left out. So a property is declared exactly if its slot has a value, and what holds of every value that a slot can
have holds of every declaration.

## Contents

* `declareAll`, `mem_declareAll`, `mem_keys_iff`: declarations from slots;
* `keys_declareAll_sublist`: **their order**;
* `Layer.appearanceSlots`, `Layer.declarations_eq_declareAll`: **the slots of an appearance**;
* `Layer.typographySlots`, `Layer.typography_eq_declareAll`: the slots of a text.
-/

namespace DesignMarkup

namespace Style

/-- The declarations of the slots that have a value. -/
def declareAll (slots : List (String × Option String)) : Declarations :=
  slots.flatMap fun s => declare s.1 s.2

variable {slots : List (String × Option String)} {property value : String}

theorem mem_declareAll : (property, value) ∈ declareAll slots ↔ (property, some value) ∈ slots := by
  simp only [declareAll, declare, List.mem_flatMap, List.mem_map, Option.mem_toList, Prod.mk.injEq]
  constructor
  · rintro ⟨⟨own, v⟩, hs, v', hv, rfl, rfl⟩
    exact (show v = some v' from hv) ▸ hs
  · intro h
    exact ⟨(property, some value), h, value, rfl, rfl, rfl⟩

theorem mem_keys_iff {ds : Declarations} : property ∈ Entries.keys ds ↔ ∃ value, (property, value) ∈ ds := by
  simp only [Entries.keys, List.mem_map, Prod.exists, exists_and_right, exists_eq_right]

/-- **The properties** that are declared are some of those of the slots, in their order. -/
theorem keys_declareAll_sublist (slots : List (String × Option String)) :
    (Entries.keys (declareAll slots)).Sublist (slots.map (·.1)) := by
  induction slots with
  | nil => exact List.Sublist.refl _
  | cons s slots ih =>
    obtain ⟨property, value⟩ := s
    rw [declareAll, List.flatMap_cons, Entries.keys, List.map_append, List.map_cons]
    cases value with
    | none => exact ih.cons property
    | some v => exact ih.cons_cons property

/-- A length has a value exactly if it is given and not zero. -/
theorem isSome_length (n : Option Number) : (length n).isSome = isSet n := by
  cases n with
  | none => rfl
  | some n => cases h : n.isZero <;> simp [length, isSet, h, Option.filter]

/-- A border of a weight and a colour, if both are there. -/
def borderText (weight : Option Number) (stroke : Option String) : Option String := do
  let color ← stroke
  let width ← length weight
  return width ++ " solid " ++ color

theorem borderText_eq_some_iff {weight : Option Number} {stroke : Option String} :
    borderText weight stroke = some value ↔
      ∃ color width, stroke = some color ∧ length weight = some width ∧ width ++ " solid " ++ color = value := by
  simp only [borderText, Option.bind_eq_bind, Option.pure_def, Option.bind_eq_some_iff, Option.some.injEq]
  constructor
  · rintro ⟨color, hcolor, width, hwidth, hvalue⟩
    exact ⟨color, width, hcolor, hwidth, hvalue⟩
  · rintro ⟨color, width, hcolor, hwidth, hvalue⟩
    exact ⟨color, hcolor, width, hwidth, hvalue⟩

/-- The texts of several shadows, one after the other, if there are any. -/
def shadowsText (texts : List String) : Option String :=
  if texts.isEmpty then none else some (", ".intercalate texts)

theorem shadowsText_eq_some_iff {texts : List String} :
    shadowsText texts = some value ↔ texts ≠ [] ∧ ", ".intercalate texts = value := by
  unfold shadowsText
  split
  · next h => exact iff_of_false nofun fun hne => hne.1 (List.isEmpty_iff.mp h)
  · next h => rw [Option.some_inj, and_iff_right (mt List.isEmpty_iff.mpr h)]

end Style

open Style

namespace Layer

/-- The slots of the appearance of a layer, from the texts of its paints and of its shadows. -/
def appearanceSlots (l : Layer) (background stroke : Option String) (shadows : List String) :
    List (String × Option String) :=
  [("backgroundColor", background), ("border", borderText l.strokeWeight stroke),
    ("boxShadow", shadowsText shadows), ("borderRadius", length l.cornerRadius),
    ("width", length l.width), ("height", length l.height)]

/-- **The appearance of a layer** is made from its slots. -/
theorem declarations_eq_declareAll {l : Layer} {ds : Declarations} (h : l.declarations = .ok ds) :
    ∃ background stroke shadows, firstFill l.fills = .ok background ∧ firstFill l.strokes = .ok stroke ∧
      (l.effects.filter Effect.isShown).mapM shadowText = .ok shadows ∧
      ds = declareAll (l.appearanceSlots background stroke shadows) := by
  unfold Layer.declarations at h
  obtain ⟨background, hbackground, h⟩ := bind_eq_ok.mp h
  obtain ⟨stroke, hstroke, h⟩ := bind_eq_ok.mp h
  obtain ⟨shadows, hshadows, h⟩ := bind_eq_ok.mp h
  refine ⟨background, stroke, shadows, hbackground, hstroke, hshadows, ?_⟩
  rw [← pure_eq_ok.mp h, declareAll, appearanceSlots, borderText, shadowsText]
  simp only [List.flatMap_cons, List.flatMap_nil, List.append_nil, List.append_assoc]

/-- The slots of the setting of a text. -/
def typographySlots (l : Layer) : List (String × Option String) :=
  [("fontSize", length l.textStyle.fontSize),
    ("fontWeight", (l.textStyle.fontWeight.filter (!·.isZero)).map Number.cssText),
    ("lineHeight", length l.textStyle.lineHeight), ("letterSpacing", length l.textStyle.letterSpacing),
    ("textAlign", (l.textStyle.align.filter (· != "")).map alignText)]

/-- **The setting of a text** is made from its slots. -/
theorem typography_eq_declareAll (l : Layer) : l.typography = declareAll l.typographySlots := by
  unfold typography declareAll typographySlots
  simp only [List.flatMap_cons, List.flatMap_nil, List.append_nil, List.append_assoc]

end Layer

end DesignMarkup
