import DesignMarkup.Proofs.ClassName
import DesignMarkup.Proofs.Style.Slots

/-!
# `Proofs.Style.Values` — what declarations are made of

The values of declarations are numbers with units, colours, shadows and words. Whatever the numbers are,
infinite or no numbers at all, their texts have digits, small letters and a few marks only, and so has every
value that is put together from them. The properties are names of letters.

## Contents

* `isValueChar`, `IsValue`: values; `isValue_cssText`: **numbers of any size**;
* `isValue_of_colorText`, `isValue_of_shadowText`: colours and shadows;
* `IsProperty`, `IsDeclaration`, `isDeclaration_of_slots`: declarations;
* `Layer.roleDeclarations_isDeclaration`: **what a layer declares**.
-/

namespace DesignMarkup

namespace Style

/-! ## Values -/

/-- The characters of values. -/
def isValueChar (c : Char) : Bool :=
  c.isLower || c.isDigit || [' ', ',', '.', '(', ')', '+', '-'].contains c

/-- A value has such characters only. -/
def IsValue (s : String) : Prop :=
  ∀ c ∈ s.toList, isValueChar c = true

instance (s : String) : Decidable (IsValue s) :=
  decidable_of_iff (s.toList.all isValueChar = true) List.all_eq_true

theorem IsValue.append {s t : String} (hs : IsValue s) (ht : IsValue t) : IsValue (s ++ t) := by
  unfold IsValue
  rw [String.toList_append]
  exact List.forall_mem_append.mpr ⟨hs, ht⟩

theorem isValue_intercalate {sep : String} {ss : List String} (hsep : IsValue sep)
    (hs : ∀ s ∈ ss, IsValue s) : IsValue (sep.intercalate ss) := by
  intro c hc
  obtain hc | ⟨s, hm, hc⟩ := mem_intercalate_toList hc
  · exact hsep c hc
  · exact hs s hm c hc

/-! ## Numbers -/

theorem toDigits_value (n : Nat) : ∀ c ∈ Nat.toDigits 10 n, isValueChar c = true := by
  intro c hc
  have hd : c.isDigit = true := Nat.isDigit_of_mem_toDigits (by decide) (by decide) hc
  rw [isValueChar, hd, Bool.or_true, Bool.true_or]

theorem isValue_natText (n : Nat) : IsValue (toString n) := by
  unfold IsValue
  rw [toList_toString]
  exact toDigits_value n

theorem isValue_intText (n : Int) : IsValue (toString n) := by
  cases n with
  | ofNat m => exact isValue_natText m
  | negSucc m => exact IsValue.append (s := "-") (by decide) (isValue_natText (m + 1))

theorem exponentText_value (e : Int) : ∀ c ∈ Decimal.exponentText e, isValueChar c = true := by
  have hdigits := toDigits_value e.natAbs
  unfold Decimal.exponentText
  refine List.forall_mem_cons.mpr ⟨?_, ?_⟩
  · split <;> decide
  · split
    · exact List.forall_mem_cons.mpr ⟨by decide, hdigits⟩
    · exact hdigits

theorem mem_of_mem_trimZeros {c : Char} {ds : List Char} (h : c ∈ Decimal.trimZeros ds) : c ∈ ds := by
  rw [Decimal.trimZeros, List.mem_reverse] at h
  exact List.mem_reverse.mp ((List.dropWhile_sublist _).mem h)

/-- The characters of a numeral, in positional notation or with an exponent. -/
theorem layout_value (d : Decimal) : ∀ c ∈ d.layout, isValueChar c = true := by
  have hdigits : ∀ c ∈ Decimal.trimZeros (Nat.toDigits 10 d.digits), isValueChar c = true :=
    fun c hc => toDigits_value d.digits c (mem_of_mem_trimZeros hc)
  have hzeros (k : Nat) : ∀ c ∈ List.replicate k '0', isValueChar c = true := by
    intro c hc
    rw [List.eq_of_mem_replicate hc]
    decide
  unfold Decimal.layout
  dsimp only
  generalize Decimal.trimZeros (Nat.toDigits 10 d.digits) = ds at hdigits ⊢
  split
  · split
    · exact List.forall_mem_append.mpr
        ⟨List.forall_mem_append.mpr ⟨List.all_eq_true.mp (by decide), hzeros _⟩, hdigits⟩
    · split
      · exact List.forall_mem_append.mpr
          ⟨List.forall_mem_append.mpr ⟨hdigits, hzeros _⟩, List.all_eq_true.mp (by decide)⟩
      · refine List.forall_mem_append.mpr ⟨fun c hc => hdigits c (List.mem_of_mem_take hc), ?_⟩
        exact List.forall_mem_cons.mpr ⟨by decide, fun c hc => hdigits c (List.mem_of_mem_drop hc)⟩
  · split
    · exact List.forall_mem_nil _
    · exact List.forall_mem_cons.mpr ⟨hdigits _ List.mem_cons_self,
        List.forall_mem_cons.mpr ⟨by decide, exponentText_value _⟩⟩
    · obtain ⟨hfirst, hrest⟩ := List.forall_mem_cons.mp hdigits
      refine List.forall_mem_append.mpr ⟨?_, List.forall_mem_cons.mpr ⟨by decide, exponentText_value _⟩⟩
      exact List.forall_mem_cons.mpr ⟨hfirst, List.forall_mem_cons.mpr ⟨by decide, hrest⟩⟩

theorem isValue_doubleText (x : Binary64) : IsValue x.text := by
  unfold Binary64.text
  split
  · next x =>
    have hbody : ∀ c ∈ if x.significand = 0 then ['0', '.', '0'] else x.shortest.layout,
        isValueChar c = true := by
      split
      · exact List.all_eq_true.mp (by decide)
      · exact layout_value _
    unfold IsValue
    dsimp only
    rw [String.toList_ofList]
    split
    · exact List.forall_mem_cons.mpr ⟨by decide, hbody⟩
    · exact hbody
  · split <;> decide
  · decide

/-- **The text of a number is a value**, whatever the number is. -/
theorem isValue_cssText (n : Number) : IsValue n.cssText := by
  unfold Number.cssText
  split
  · exact isValue_intText _
  · split
    · exact isValue_intText _
    · exact isValue_doubleText _

theorem isValue_pixels (n : Number) : IsValue (pixels n) :=
  (isValue_cssText n).append (by decide)

/-! ## Colours and shadows -/

theorem isValue_of_colorText {c : Color} {s : String} (h : colorText c = .ok s) : IsValue s := by
  unfold colorText at h
  obtain ⟨r, -, h⟩ := bind_eq_ok.mp h
  obtain ⟨g, -, h⟩ := bind_eq_ok.mp h
  obtain ⟨b, -, h⟩ := bind_eq_ok.mp h
  have hcomma : IsValue ", " := by decide
  have hchannels : IsValue (toString r ++ ", " ++ toString g ++ ", " ++ toString b) :=
    ((((isValue_intText r).append hcomma).append (isValue_intText g)).append hcomma).append
      (isValue_intText b)
  dsimp only at h
  split at h
  · rw [← pure_eq_ok.mp h]
    exact (((IsValue.append (by decide) hchannels).append hcomma).append (isValue_cssText _)).append
      (by decide)
  · rw [← pure_eq_ok.mp h]
    exact (IsValue.append (by decide) hchannels).append (by decide)

theorem isValue_of_colorOrNone {color : Option Color} {s : String} (h : colorOrNone color = .ok s) :
    IsValue s := by
  cases color with
  | none =>
    rw [← Except.ok.inj h]
    decide
  | some c => exact isValue_of_colorText h

theorem isValue_of_firstFill {paints : List Paint} {fill : Option String}
    (h : firstFill paints = .ok fill) : ∀ s ∈ fill, IsValue s := by
  intro s hs
  obtain rfl := Option.mem_def.mp hs
  cases paints with
  | nil => cases h
  | cons p rest =>
    rw [firstFill, fillText] at h
    split at h
    · rw [map_eq_pure_bind] at h
      obtain ⟨color, hcolor, h⟩ := bind_eq_ok.mp h
      obtain rfl := Option.some.inj (pure_eq_ok.mp h)
      exact isValue_of_colorOrNone hcolor
    · cases h

theorem isValue_of_shadowText {e : Effect} {s : String} (h : shadowText e = .ok s) : IsValue s := by
  obtain ⟨color, hcolor, h⟩ := bind_eq_ok.mp h
  rw [← pure_eq_ok.mp h]
  refine isValue_intercalate (by decide) ?_
  simp only [List.forall_mem_cons]
  exact ⟨isValue_pixels _, isValue_pixels _, isValue_pixels _, isValue_pixels _,
    isValue_of_colorOrNone hcolor, List.forall_mem_nil _⟩

/-! ## Declarations -/

/-- A property is a name of letters. -/
def IsProperty (s : String) : Prop :=
  s ≠ "" ∧ ∀ c ∈ s.toList, c.isAlpha = true

instance (s : String) : Decidable (IsProperty s) :=
  decidable_of_iff (s ≠ "" ∧ s.toList.all Char.isAlpha = true)
    (and_congr_right fun _ => List.all_eq_true)

/-- A declaration has a property and a value. -/
structure IsDeclaration (d : String × String) : Prop where
  property : IsProperty d.1
  value : IsValue d.2

/-- Slots of properties with values make declarations. -/
theorem isDeclaration_of_slots {slots : List (String × Option String)}
    (h : ∀ s ∈ slots, IsProperty s.1 ∧ ∀ v ∈ s.2, IsValue v) : ∀ d ∈ declareAll slots, IsDeclaration d := by
  intro d hd
  obtain ⟨hp, hv⟩ := h (d.1, some d.2) (mem_declareAll.mp hd)
  exact ⟨hp, hv d.2 rfl⟩

theorem isValue_of_length {n : Option Number} : ∀ v ∈ length n, IsValue v := by
  intro v hv
  obtain ⟨m, -, rfl⟩ := Option.map_eq_some_iff.mp hv
  exact isValue_pixels m

theorem isValue_alignText (align : String) : IsValue (alignText align) := by
  unfold alignText
  split <;> decide

end Style

open Style

/-- The appearance of a layer is made of declarations. -/
theorem Layer.declarations_isDeclaration {l : Layer} {ds : Declarations}
    (h : l.declarations = .ok ds) : ∀ d ∈ ds, IsDeclaration d := by
  obtain ⟨background, stroke, shadows, hbackground, hstroke, hshadows, rfl⟩ := declarations_eq_declareAll h
  have hborder : ∀ v ∈ borderText l.strokeWeight stroke, IsValue v := by
    intro v hv
    obtain ⟨color, weight, hcolor, hweight, rfl⟩ := borderText_eq_some_iff.mp hv
    exact ((isValue_of_length weight hweight).append (by decide)).append
      (isValue_of_firstFill hstroke color hcolor)
  have hshadow : ∀ v ∈ shadowsText shadows, IsValue v := by
    intro v hv
    obtain ⟨-, rfl⟩ := shadowsText_eq_some_iff.mp hv
    have htexts : List.Forall₂ (fun text e => IsValue text ∧ shadowText e = .ok text) shadows _ :=
      (forall₂_of_mapM_ok hshadows).flip.imp fun text e he => ⟨isValue_of_shadowText he, he⟩
    exact isValue_intercalate (by decide) ((List.forall₂_and_left _ _).mp htexts).1
  apply isDeclaration_of_slots
  simp only [appearanceSlots, List.forall_mem_cons]
  exact ⟨⟨by decide, isValue_of_firstFill hbackground⟩, ⟨by decide, hborder⟩, ⟨by decide, hshadow⟩,
    ⟨by decide, isValue_of_length⟩, ⟨by decide, isValue_of_length⟩, ⟨by decide, isValue_of_length⟩,
    List.forall_mem_nil _⟩

/-- The setting of a text is made of declarations. -/
theorem Layer.typography_isDeclaration (l : Layer) : ∀ d ∈ l.typography, IsDeclaration d := by
  have hweight : ∀ v ∈ (l.textStyle.fontWeight.filter (!·.isZero)).map Number.cssText, IsValue v := by
    intro v hv
    obtain ⟨n, -, rfl⟩ := Option.map_eq_some_iff.mp hv
    exact isValue_cssText n
  have halign : ∀ v ∈ (l.textStyle.align.filter (· != "")).map alignText, IsValue v := by
    intro v hv
    obtain ⟨align, -, rfl⟩ := Option.map_eq_some_iff.mp hv
    exact isValue_alignText align
  rw [typography_eq_declareAll]
  apply isDeclaration_of_slots
  simp only [typographySlots, List.forall_mem_cons]
  exact ⟨⟨by decide, isValue_of_length⟩, ⟨by decide, hweight⟩, ⟨by decide, isValue_of_length⟩,
    ⟨by decide, isValue_of_length⟩, ⟨by decide, halign⟩, List.forall_mem_nil _⟩

/-- **Whatever a layer declares is made of declarations**: properties of letters, and values. -/
theorem Layer.roleDeclarations_isDeclaration {l : Layer} {r : Role} {ds : Declarations}
    (h : l.roleDeclarations r = .ok ds) : ∀ d ∈ ds, IsDeclaration d := by
  unfold Layer.roleDeclarations at h
  split at h
  · rw [← Except.ok.inj h]
    exact l.typography_isDeclaration
  · exact Layer.declarations_isDeclaration h

end DesignMarkup
