import DesignMarkup.Conversion

/-!
# `Proofs.ClassName` — what class names look like

Two facts about class names carry everything that is said of them elsewhere. A name is a **word**: it
has small letters, digits and hyphens only, so it can stand in an attribute and in a list of classes.
And a minted name **ends in its number**: whatever the stem is, even one with hyphens and digits of its
own, the number can be read back from the name, so names with different numbers differ.

## Contents

* `IsWord`: words, and the words that are written out in the program;
* `numberedName`, `Numbered`: names that end in a number; `Numbered.unique`, `numberedName_inj`.
-/

namespace DesignMarkup

/-! ## Words -/

/-- The characters of tags and classes. -/
def isWordChar (c : Char) : Bool :=
  c.isLower || c.isDigit || c == '-'

/-- A word is not empty and has small letters, digits and hyphens only. -/
def IsWord (s : String) : Prop :=
  s ≠ "" ∧ ∀ c ∈ s.toList, isWordChar c

instance (s : String) : Decidable (IsWord s) :=
  decidable_of_iff (s ≠ "" ∧ s.toList.all isWordChar = true)
    (and_congr_right fun _ => List.all_eq_true)

/-- A character that is not in any word does not occur in a word. -/
theorem IsWord.not_mem {s : String} (h : IsWord s) {c : Char} (hc : isWordChar c = false) :
    c ∉ s.toList := by
  intro hm
  have := h.2 c hm
  rw [hc] at this
  exact absurd this (by decide)

/-- A character of joined texts is one of a text or of what stands between two of them. -/
theorem mem_intercalate {sep : List Char} {c : Char} {ws : List (List Char)} (h : c ∈ sep.intercalate ws) :
    c ∈ sep ∨ ∃ w ∈ ws, c ∈ w := by
  induction ws with
  | nil => cases h
  | cons w ws ih =>
    cases ws with
    | nil =>
      rw [List.intercalate_singleton] at h
      exact Or.inr ⟨w, List.mem_cons_self, h⟩
    | cons v ws =>
      rw [List.intercalate_cons_cons, List.mem_append, List.mem_append] at h
      rcases h with (h | h) | h
      · exact Or.inr ⟨w, List.mem_cons_self, h⟩
      · exact Or.inl h
      · obtain hs | ⟨u, hu, hc⟩ := ih h
        · exact Or.inl hs
        · exact Or.inr ⟨u, List.mem_cons_of_mem w hu, hc⟩

theorem mem_intercalate_toList {sep : String} {c : Char} {ss : List String}
    (h : c ∈ (sep.intercalate ss).toList) : c ∈ sep.toList ∨ ∃ s ∈ ss, c ∈ s.toList := by
  rw [String.toList_intercalate] at h
  rcases mem_intercalate h with hc | ⟨w, hw, hc⟩
  · exact Or.inl hc
  · obtain ⟨s, hs, rfl⟩ := List.mem_map.mp hw
    exact Or.inr ⟨s, hs, hc⟩

theorem toList_toString (k : Nat) : (toString k).toList = Nat.toDigits 10 k := by
  rw [Nat.toString_eq_repr, Nat.toList_repr]

/-! ## Numbered names -/

/-- The name with a stem and a number. -/
def numberedName (stem : String) (k : Nat) : String :=
  stem ++ "-" ++ toString k

/-- The name ends in the number, after a hyphen. -/
def Numbered (k : Nat) (name : String) : Prop :=
  ∃ stem, name = numberedName stem k

theorem numbered_numberedName (stem : String) (k : Nat) : Numbered k (numberedName stem k) :=
  ⟨stem, rfl⟩

theorem toList_numberedName (stem : String) (k : Nat) :
    (numberedName stem k).toList = stem.toList ++ '-' :: Nat.toDigits 10 k := by
  simp only [numberedName, String.toList_append, toList_toString]
  rw [List.append_assoc]
  rfl

/-- What follows the last hyphen is determined by the whole. -/
theorem eq_of_append_hyphen {a b : List Char} :
    ∀ {s t : List Char}, '-' ∉ a → '-' ∉ b → s ++ '-' :: a = t ++ '-' :: b → a = b := by
  intro s
  induction s with
  | nil =>
    intro t ha _ h
    cases t with
    | nil => exact (List.cons.inj h).2
    | cons x t =>
      have he : a = t ++ '-' :: b := (List.cons.inj h).2
      exact absurd (he ▸ List.mem_append_right t List.mem_cons_self) ha
  | cons x s ih =>
    intro t ha hb h
    cases t with
    | nil =>
      have he : s ++ '-' :: a = b := (List.cons.inj h).2
      exact absurd (he ▸ List.mem_append_right s List.mem_cons_self) hb
    | cons y t => exact ih ha hb (List.cons.inj h).2

theorem hyphen_not_mem_toDigits (k : Nat) : '-' ∉ Nat.toDigits 10 k := by
  intro h
  have hd : ('-' : Char).isDigit = true := Nat.isDigit_of_mem_toDigits (by decide) (by decide) h
  exact absurd hd (by decide)

/-- **A name has one number**, whatever hyphens and digits its stem has. -/
theorem Numbered.unique {j k : Nat} {name : String} (hj : Numbered j name) (hk : Numbered k name) :
    j = k := by
  obtain ⟨stem, rfl⟩ := hj
  obtain ⟨stem', he⟩ := hk
  have hl := congrArg String.toList he
  rw [toList_numberedName, toList_numberedName] at hl
  -- a stem may have hyphens of its own, but the digits have none
  have hd := eq_of_append_hyphen (hyphen_not_mem_toDigits j) (hyphen_not_mem_toDigits k) hl
  have hn := congrArg (fun digits => Nat.ofDigitChars 10 digits 0) hd
  simpa using hn

/-- Stem and number are determined by the name. -/
theorem numberedName_inj {stem stem' : String} {j k : Nat} :
    numberedName stem j = numberedName stem' k ↔ stem = stem' ∧ j = k := by
  constructor
  · intro h
    have hk : j = k := Numbered.unique ⟨stem, rfl⟩ ⟨stem', h⟩
    subst hk
    have hl := congrArg String.toList h
    rw [toList_numberedName, toList_numberedName] at hl
    exact ⟨String.toList_inj.mp (List.append_cancel_right hl), rfl⟩
  · rintro ⟨rfl, rfl⟩
    rfl

/-- A numbered name ends in a digit. -/
theorem getLast?_numberedName (stem : String) (k : Nat) :
    ∃ d ∈ (numberedName stem k).toList.getLast?, d.isDigit = true := by
  obtain ⟨d, hd⟩ : ∃ d, (Nat.toDigits 10 k).getLast? = some d := by
    cases hlast : (Nat.toDigits 10 k).getLast? with
    | none => exact absurd (List.getLast?_eq_none_iff.mp hlast) Nat.toDigits_ne_nil
    | some d => exact ⟨d, rfl⟩
  refine ⟨d, ?_, Nat.isDigit_of_mem_toDigits (by decide) (by decide) (List.mem_of_getLast? hd)⟩
  rw [toList_numberedName, List.getLast?_append, List.getLast?_cons, hd]
  rfl

/-- A numbered name with a word as its stem is a word. -/
theorem isWord_numberedName {stem : String} (h : IsWord stem) (k : Nat) :
    IsWord (numberedName stem k) := by
  refine ⟨?_, ?_⟩
  · intro he
    have hl := congrArg String.toList he
    rw [toList_numberedName] at hl
    simp at hl
  · intro c hc
    rw [toList_numberedName, List.mem_append, List.mem_cons] at hc
    rcases hc with hc | hc | hc
    · exact h.2 c hc
    · rw [hc]; decide
    · have hd : c.isDigit = true := Nat.isDigit_of_mem_toDigits (by decide) (by decide) hc
      rw [isWordChar, hd, Bool.or_true, Bool.true_or]

/-! ## The names that conversions use -/

/-- Every stem of a class is a word. -/
theorem isWord_stem (r : Role) (k : Kind) : IsWord (r.stem k) := by
  cases r <;> cases k <;> decide

/-- Every tag of a box is a word. -/
theorem isWord_boxTag (r : Role) (k : Kind) : IsWord (r.boxTag k) := by
  cases r <;> cases k <;> decide

/-- Every tag of a text is a word. -/
theorem isWord_tag (s : TextStyle) : IsWord s.tag := by
  unfold TextStyle.tag
  dsimp only
  split
  · decide
  · split
    · decide
    · split <;> decide

end DesignMarkup
