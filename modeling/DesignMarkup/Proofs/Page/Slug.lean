import DesignMarkup.Proofs.Page.FileName
import Mathlib.Data.List.DropRight
import Mathlib.Logic.Relation

/-!
# `Proofs.Page.Slug` — slugs are made of words

A slug is made by taking the blanks off at the ends of a name and putting a hyphen for every run of blanks
that is left. The same text comes of splitting the name at blanks and joining the words with hyphens, and in
this form the blanks of the name do not occur any more: names with the same words have the same slug, and
changing the blanks at the ends of a name or between two words changes no word. That a slug has no blanks
itself is a fact about small letters, none of which is blank.

## Contents

* `Text.words`, `words_append_blank`, `words_cons_solid`, `mem_words`: **words**, and how they split;
* `words_dropWhile`, `words_rdropWhile`, `words_trim`: blanks at the ends;
* `joinRuns_true_eq_intercalate`, `joinRuns_trim`: **a run of blanks is what stands between two words**;
* `Respaced`, `words_of_respaced`: names that differ in their blanks only;
* `lowerChar_solid`, `lowerAfter_solid`: small letters are not blank;
* `slug_splits_words`: **a slug is made of words**.
-/

namespace DesignMarkup

namespace Text

/-! ## Words -/

/-- The words of a text: what stands between blanks, where it is not empty. -/
def words (cs : List Char) : List (List Char) :=
  (cs.splitOnP isBlank).filter (!·.isEmpty)

@[simp] theorem words_nil : words [] = [] := by
  simp [words, List.splitOnP_nil]

/-- **Words split at a blank.** -/
theorem words_append_blank {b : Char} (hb : isBlank b = true) (front back : List Char) :
    words (front ++ b :: back) = words front ++ words back := by
  unfold words
  rw [List.splitOnP_append_cons front back hb, List.filter_append]

/-- A blank at the front belongs to no word. -/
theorem words_cons_blank {b : Char} (hb : isBlank b = true) (cs : List Char) : words (b :: cs) = words cs := by
  simpa using words_append_blank hb [] cs

/-- A single character that is not blank is a word. -/
theorem words_singleton {c : Char} (hc : isBlank c = false) : words [c] = [[c]] := by
  have hall : ∀ d ∈ [c], isBlank d = false := by simpa using hc
  simp [words, List.splitOnP_eq_singleton hall]

/-- A word may end after its first character, -/
theorem words_cons_cons_blank {c b : Char} (hc : isBlank c = false) (hb : isBlank b = true) (cs : List Char) :
    words (c :: b :: cs) = [c] :: words (b :: cs) := by
  have hsplit := words_append_blank hb [c] cs
  rw [words_singleton hc] at hsplit
  rw [words_cons_blank hb]
  exact hsplit

/-- and otherwise it goes on. -/
theorem words_cons_cons_solid {c d : Char} (hc : isBlank c = false) (hd : isBlank d = false) (cs : List Char) :
    ∃ w ws, words (d :: cs) = w :: ws ∧ words (c :: d :: cs) = (c :: w) :: ws := by
  obtain ⟨first, others, hsplit⟩ := List.exists_cons_of_ne_nil (List.splitOnP_ne_nil isBlank cs)
  refine ⟨d :: first, others.filter (!·.isEmpty), ?_, ?_⟩
  · simp [words, List.splitOnP_cons_eq_if_modifyHead, hsplit, hd]
  · simp [words, List.splitOnP_cons_eq_if_modifyHead, hsplit, hc, hd]

/-- A text that has a character that is not blank has a word. -/
theorem words_ne_nil {cs : List Char} {c : Char} (hmem : c ∈ cs) (hc : isBlank c = false) : words cs ≠ [] := by
  induction cs with
  | nil => exact absurd hmem List.not_mem_nil
  | cons d cs ih =>
    by_cases hd : isBlank d = true
    · have hne : c ≠ d := by
        rintro rfl
        simp [hc] at hd
      rw [words_cons_blank hd]
      exact ih ((List.mem_cons.mp hmem).resolve_left hne)
    · have hd : isBlank d = false := by simpa using hd
      cases cs with
      | nil => simp [words_singleton hd]
      | cons e cs =>
        by_cases he : isBlank e = true
        · simp [words_cons_cons_blank hd he]
        · obtain ⟨w, ws, -, hwords⟩ := words_cons_cons_solid hd (by simpa using he) cs
          simp [hwords]

/-- A word has no blanks, and it is not empty. -/
theorem mem_words {cs w : List Char} (h : w ∈ words cs) : w ≠ [] ∧ ∀ c ∈ w, isBlank c = false := by
  induction cs generalizing w with
  | nil => simp at h
  | cons c cs ih =>
    by_cases hc : isBlank c = true
    · rw [words_cons_blank hc] at h
      exact ih h
    · have hc : isBlank c = false := by simpa using hc
      cases cs with
      | nil =>
        rw [words_singleton hc] at h
        obtain rfl := List.mem_singleton.mp h
        simpa using hc
      | cons d cs =>
        by_cases hd : isBlank d = true
        · rw [words_cons_cons_blank hc hd] at h
          rcases List.mem_cons.mp h with rfl | h
          · simpa using hc
          · exact ih h
        · obtain ⟨first, others, hwords, hlonger⟩ := words_cons_cons_solid hc (by simpa using hd) cs
          rw [hlonger] at h
          rw [hwords] at ih
          rcases List.mem_cons.mp h with rfl | h
          · have hfirst := (ih List.mem_cons_self).2
            simpa [hc] using hfirst
          · exact ih (List.mem_cons_of_mem _ h)

/-! ## Blanks at the ends -/

theorem words_blanks_append {blanks : List Char} (h : ∀ b ∈ blanks, isBlank b = true) (cs : List Char) :
    words (blanks ++ cs) = words cs := by
  induction blanks with
  | nil => rfl
  | cons b blanks ih =>
    obtain ⟨hb, hrest⟩ := List.forall_mem_cons.mp h
    rw [List.cons_append, words_cons_blank hb, ih hrest]

theorem words_append_blanks {blanks : List Char} (h : ∀ b ∈ blanks, isBlank b = true) (cs : List Char) :
    words (cs ++ blanks) = words cs := by
  cases blanks with
  | nil => rw [List.append_nil]
  | cons b blanks =>
    obtain ⟨hb, hrest⟩ := List.forall_mem_cons.mp h
    have hnone : words blanks = [] := by simpa using words_blanks_append hrest []
    rw [words_append_blank hb, hnone, List.append_nil]

theorem words_dropWhile (cs : List Char) : words (cs.dropWhile isBlank) = words cs := by
  have hblank : ∀ b ∈ cs.takeWhile isBlank, isBlank b = true := fun b hb => List.mem_takeWhile_imp hb
  conv_rhs => rw [← List.takeWhile_append_dropWhile (p := isBlank) (l := cs)]
  exact (words_blanks_append hblank _).symm

theorem words_rdropWhile (cs : List Char) : words (cs.rdropWhile isBlank) = words cs := by
  induction cs using List.reverseRecOn with
  | nil => rfl
  | append_singleton cs c ih =>
    rw [List.rdropWhile_concat]
    split
    · next hc => rw [ih, words_append_blanks (by simpa using hc)]
    · rfl

/-- **Taking the blanks off at the ends** changes no word. -/
theorem words_trim (cs : List Char) : words (trim cs) = words cs :=
  (words_rdropWhile _).trans (words_dropWhile cs)

/-! ## Runs of blanks -/

/-- The text does not end in a blank. -/
def EndsSolid (cs : List Char) : Prop :=
  ∀ h : cs ≠ [], isBlank (cs.getLast h) = false

theorem endsSolid_trim (cs : List Char) : EndsSolid (trim cs) := by
  intro h
  exact Bool.eq_false_iff.mpr (List.rdropWhile_last_not isBlank (cs.dropWhile isBlank) h)

/-- **A run of blanks is what stands between two words.** If the blanks at the front are dropped and there are
none at the end, joining the runs is joining the words. -/
theorem joinRuns_true_eq_intercalate (mark : Char) {cs : List Char} (h : EndsSolid cs) :
    joinRuns mark true cs = [mark].intercalate (words cs) := by
  induction cs with
  | nil => rfl
  | cons c cs ih =>
    have hrest : cs ≠ [] → EndsSolid cs := by
      intro hne _
      have hlast := h (List.cons_ne_nil c cs)
      rwa [List.getLast_cons hne] at hlast
    by_cases hc : isBlank c = true
    · have hne : cs ≠ [] := by
        rintro rfl
        have hlast : isBlank c = false := h (List.cons_ne_nil c [])
        simp [hc] at hlast
      rw [words_cons_blank hc, ← ih (hrest hne)]
      simp [joinRuns, hc]
    · have hc : isBlank c = false := by simpa using hc
      have hkept : joinRuns mark true (c :: cs) = c :: joinRuns mark false cs := by simp [joinRuns, hc]
      cases cs with
      | nil =>
        rw [words_singleton hc, List.intercalate_singleton, hkept]
        rfl
      | cons d cs =>
        have ih := ih (hrest (List.cons_ne_nil d cs))
        by_cases hd : isBlank d = true
        · -- the word ends here, and there is another one since the text does not end in blanks
          have hlater : words (d :: cs) ≠ [] :=
            words_ne_nil (List.getLast_mem _) (hrest (List.cons_ne_nil d cs) (List.cons_ne_nil d cs))
          have hmarked : joinRuns mark false (d :: cs) = mark :: joinRuns mark true (d :: cs) := by
            simp [joinRuns, hd]
          obtain ⟨w, ws, hwords⟩ := List.exists_cons_of_ne_nil hlater
          rw [hkept, hmarked, ih, words_cons_cons_blank hc hd, hwords, List.intercalate_cons_cons]
          rfl
        · have hd : isBlank d = false := by simpa using hd
          have hsame : joinRuns mark false (d :: cs) = joinRuns mark true (d :: cs) := by
            simp [joinRuns, hd]
          obtain ⟨w, ws, hwords, hlonger⟩ := words_cons_cons_solid hc hd cs
          rw [hkept, hsame, ih, hwords, hlonger, List.intercalate_cons_cons_left]

/-- **Joining the runs of a text without blanks at its ends** is joining its words. -/
theorem joinRuns_trim (mark : Char) (cs : List Char) :
    joinRuns mark false (trim cs) = [mark].intercalate (words cs) := by
  have hdrop : joinRuns mark false (trim cs) = joinRuns mark true (trim cs) := by
    rcases htrim : trim cs with _ | ⟨c, rest⟩
    · rfl
    · have hprefix : trim cs <+: cs.dropWhile isBlank := List.rdropWhile_prefix _ _
      rw [htrim] at hprefix
      obtain ⟨tail, htail⟩ := hprefix
      have hne : cs.dropWhile isBlank ≠ [] := by simp [← htail]
      have hc := List.head_dropWhile_not isBlank hne
      simp only [← htail, List.cons_append, List.head_cons] at hc
      simp [joinRuns, hc]
  rw [hdrop, joinRuns_true_eq_intercalate mark (endsSolid_trim cs), words_trim]

/-- Joined words are empty only if there are none. -/
theorem intercalate_words_eq_nil_iff (mark : Char) {cs : List Char} :
    [mark].intercalate (words cs) = [] ↔ words cs = [] := by
  rcases hwords : words cs with _ | ⟨w, ws⟩
  · exact iff_of_true rfl rfl
  · have hne : w ≠ [] := (mem_words (hwords ▸ List.mem_cons_self)).1
    cases ws with
    | nil => simpa using hne
    | cons v ws => simp [List.intercalate_cons_cons]

/-! ## Texts that differ in their blanks -/

/-- **Other blanks**: more or fewer of them at the ends, or others instead of those between two parts. -/
inductive Respaced : List Char → List Char → Prop where
  | front (blanks cs : List Char) (h : ∀ b ∈ blanks, isBlank b = true) : Respaced (blanks ++ cs) cs
  | back (blanks cs : List Char) (h : ∀ b ∈ blanks, isBlank b = true) : Respaced (cs ++ blanks) cs
  | between (blanks others left right : List Char) (hne : blanks ≠ []) (hne' : others ≠ [])
    (h : ∀ b ∈ blanks, isBlank b = true) (h' : ∀ b ∈ others, isBlank b = true) :
    Respaced (left ++ blanks ++ right) (left ++ others ++ right)

/-- A run of blanks splits a text wherever it stands. -/
theorem words_append_run {blanks : List Char} (hne : blanks ≠ []) (h : ∀ b ∈ blanks, isBlank b = true)
    (left right : List Char) : words (left ++ blanks ++ right) = words left ++ words right := by
  obtain ⟨b, blanks, rfl⟩ := List.exists_cons_of_ne_nil hne
  obtain ⟨hb, hrest⟩ := List.forall_mem_cons.mp h
  rw [List.append_assoc, List.cons_append, words_append_blank hb, words_blanks_append hrest]

/-- **Other blanks change no word.** -/
theorem words_of_respaced {cs ds : List Char} (h : Relation.EqvGen Respaced cs ds) : words cs = words ds := by
  induction h with
  | refl => rfl
  | symm _ _ _ ih => exact ih.symm
  | trans _ _ _ _ _ ih ih' => exact ih.trans ih'
  | rel _ _ hstep =>
    cases hstep with
    | front _ _ hblank => exact words_blanks_append hblank _
    | back _ _ hblank => exact words_append_blanks hblank _
    | between _ _ _ _ hne hne' hblank hblank' =>
      rw [words_append_run hne hblank, words_append_run hne' hblank']

/-! ## Small letters -/

/-- All runs of letters have their small letters beside the blanks. -/
theorem lowerRanges_beside_blanks {r : Nat × Nat × Nat × Int} (hr : r ∈ lowerRanges) {b : Nat × Nat}
    (hb : b ∈ blankRanges) : (r.2.1 : Int) + r.2.2.2 < b.1 ∨ (b.2 : Int) < r.1 + r.2.2.2 := by
  have hall : (lowerRanges.all fun r => blankRanges.all fun b =>
      decide ((r.2.1 : Int) + r.2.2.2 < b.1 ∨ (b.2 : Int) < r.1 + r.2.2.2)) = true := by
    decide +kernel
  exact of_decide_eq_true (List.all_eq_true.mp (List.all_eq_true.mp hall r hr) b hb)

/-- No small letter is blank, unless the letter is. -/
theorem lowerChar_solid {c : Char} (h : isBlank c = false) : isBlank (lowerChar c) = false := by
  obtain hsame | hzero | ⟨r, hr, hlow, hhigh⟩ := lowerChar_cases c
  · rwa [hsame]
  · rw [hzero]
    decide
  · apply Bool.eq_false_iff.mpr
    intro hblank
    obtain ⟨b, hb, hin⟩ := List.any_eq_true.mp hblank
    have hapart := lowerRanges_beside_blanks hr hb
    simp only [Bool.and_eq_true, decide_eq_true_eq] at hin
    omega

/-- **Lowercase brings no blank in.** -/
theorem lowerAfter_solid {cs : List Char} (h : ∀ c ∈ cs, isBlank c = false) :
    ∀ before, ∀ d ∈ lowerAfter before cs, isBlank d = false := by
  induction cs with
  | nil =>
    intro before d hd
    exact absurd hd List.not_mem_nil
  | cons c cs ih =>
    intro before d hd
    obtain ⟨hc, hrest⟩ := List.forall_mem_cons.mp h
    rw [lowerAfter] at hd
    rcases List.mem_append.mp hd with hmapped | hd
    · split at hmapped
      · rw [List.mem_singleton.mp hmapped, sigma]
        split <;> decide
      · split at hmapped
        · have hnone : ['i', '\u0307'].any isBlank = false := by decide
          exact Bool.eq_false_iff.mpr (List.any_eq_false.mp hnone d hmapped)
        · rw [List.mem_singleton.mp hmapped]
          exact lowerChar_solid hc
    · exact ih hrest _ d hd

/-- Lowercase leaves nothing out. -/
theorem lowercase_eq_nil_iff {cs : List Char} : lowercase cs = [] ↔ cs = [] := by
  cases cs with
  | nil => exact iff_of_true rfl rfl
  | cons c cs =>
    refine iff_of_false ?_ (List.cons_ne_nil c cs)
    rw [lowercase, lowerAfter]
    split
    · simp
    · split <;> simp

end Text

namespace Page

open Text

/-! ## Slugs -/

/-- **A slug is made of words**: they are joined with hyphens, in lowercase. -/
theorem slug_eq_words (name : String) :
    slug name = if words name.toList = [] then "unnamed"
      else String.ofList (lowercase (['-'].intercalate (words name.toList))) := by
  have hempty : String.ofList (lowercase (['-'].intercalate (words name.toList))) = "" ↔
      words name.toList = [] := by
    rw [← intercalate_words_eq_nil_iff '-', ← lowercase_eq_nil_iff, ← String.toList_inj,
      String.toList_ofList]
    rfl
  simp only [slug, joinRuns_trim, hempty]

/-- No character of a slug is blank. -/
theorem slug_solid (name : String) : ∀ c ∈ (slug name).toList, isBlank c = false := by
  rw [slug_eq_words]
  split
  · intro c hc
    have hnone : "unnamed".toList.any isBlank = false := by decide
    exact Bool.eq_false_iff.mpr (List.any_eq_false.mp hnone c hc)
  · rw [String.toList_ofList]
    apply lowerAfter_solid
    intro c hc
    obtain hc | ⟨w, hw, hc⟩ := mem_intercalate hc
    · rw [List.mem_singleton.mp hc]
      decide
    · exact (mem_words hw).2 c hc

/-- A slug is not empty. -/
theorem slug_ne_empty (name : String) : slug name ≠ "" := by
  simp only [slug]
  split
  · decide
  · next hne => exact hne

/-- **A slug is made of the words of its name**, joined with hyphens and in lowercase, and it is `unnamed` if there
are none. So it is not empty and has no blanks, and it is the same for names that differ only in how many blanks
they have between two words, in which ones, and in those at their ends. -/
theorem slug_splits_words (name : String) :
    slug name = (if words name.toList = [] then "unnamed"
      else String.ofList (lowercase (['-'].intercalate (words name.toList)))) ∧
      slug name ≠ "" ∧ (∀ c ∈ (slug name).toList, isBlank c = false) ∧
      ∀ other : String, Relation.EqvGen Respaced name.toList other.toList → slug other = slug name := by
  refine ⟨slug_eq_words name, slug_ne_empty name, slug_solid name, ?_⟩
  intro other h
  rw [slug_eq_words, slug_eq_words, words_of_respaced h]

/-- Blanks at both ends, and a tab between two spaces, change nothing. -/
theorem slug_card_title :
    Relation.EqvGen Respaced "Card Title".toList "  Card \t Title\n".toList ∧
      slug "  Card \t Title\n" = slug "Card Title" := by
  have hsame : Relation.EqvGen Respaced "Card Title".toList "  Card \t Title\n".toList := by
    apply Relation.EqvGen.symm
    apply Relation.EqvGen.trans _ "Card \t Title\n".toList
    · exact .rel _ _ (.front [' ', ' '] "Card \t Title\n".toList (List.all_eq_true.mp (by decide)))
    apply Relation.EqvGen.trans _ "Card \t Title".toList
    · exact .rel _ _ (.back ['\n'] "Card \t Title".toList (List.all_eq_true.mp (by decide)))
    · exact .rel _ _ (.between [' ', '\t', ' '] [' '] "Card".toList "Title".toList (by decide) (by decide)
        (List.all_eq_true.mp (by decide)) (List.all_eq_true.mp (by decide)))
  exact ⟨hsame, (slug_splits_words "Card Title").2.2.2 _ hsame⟩

end Page

end DesignMarkup
