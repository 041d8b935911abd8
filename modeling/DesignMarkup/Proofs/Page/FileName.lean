import DesignMarkup.Page.FileName
import DesignMarkup.Proofs.ClassName
import DesignMarkup.Proofs.Files.Place
import Mathlib.Data.List.Nodup
import Mathlib.Data.List.Perm.Subperm

/-!
# `Proofs.Page.FileName` — file names of designs

Two facts about the file name that a design is given. It is **free**: the candidates of a slug are all
different, and there are more of them than names in use. And it is **one component** of a path if the name
of the design has no slash, since neither the hyphens nor the small letters of a slug bring one in. The same holds
of the other characters that mean something in a path or a reference.

## Contents

* `lowerChar_cases`: where small letters are;
* `pathMarks`, `mark_not_mem_slug`: the characters that mean something in a path;
* `candidate_injective`, `unusedFileName_free`: **the name that is chosen is free**;
* `mark_not_mem_unusedFileName`, `getLast?_unusedFileName`: its characters, and how it ends;
* `isPlain_unusedFileName`: **that it is one component of a path**.
-/

namespace DesignMarkup

namespace Text

/-! ## Characters of slugs -/

theorem mem_of_mem_trim {c : Char} {cs : List Char} (h : c ∈ trim cs) : c ∈ cs := by
  rw [trim, List.mem_reverse] at h
  have h' := (List.dropWhile_sublist _).mem h
  rw [List.mem_reverse] at h'
  exact (List.dropWhile_sublist _).mem h'

/-- Besides the mark, joining runs brings no character in. -/
theorem mem_joinRuns {mark c : Char} {cs : List Char} :
    ∀ {inRun : Bool}, c ∈ joinRuns mark inRun cs → c = mark ∨ c ∈ cs := by
  induction cs with
  | nil => exact fun h => absurd h List.not_mem_nil
  | cons d rest ih =>
    intro inRun h
    rw [joinRuns] at h
    split at h
    · split at h
      · exact (ih h).imp_right (List.mem_cons_of_mem d)
      · rcases List.mem_cons.mp h with h | h
        · exact .inl h
        · exact (ih h).imp_right (List.mem_cons_of_mem d)
    · rcases List.mem_cons.mp h with h | h
      · exact .inr (h ▸ List.mem_cons_self)
      · exact (ih h).imp_right (List.mem_cons_of_mem d)

/-- **The small letter of a character** is the character itself, or the null character, or it lies in the range
of the small letters of a run. -/
theorem lowerChar_cases (c : Char) : lowerChar c = c ∨ lowerChar c = Char.ofNat 0 ∨
    ∃ r ∈ lowerRanges, (r.1 : Int) + r.2.2.2 ≤ (lowerChar c).toNat ∧
      ((lowerChar c).toNat : Int) ≤ r.2.1 + r.2.2.2 := by
  rw [lowerChar]
  dsimp only
  split
  · next first last step offset hfind =>
    have htest := List.find?_some hfind
    simp only [Bool.and_eq_true, decide_eq_true_eq] at htest
    obtain ⟨⟨hfirst, hlast⟩, -⟩ := htest
    rw [Char.ofNat]
    by_cases hvalid : ((c.toNat : Int) + offset).toNat.isValidChar
    · rw [dif_pos hvalid]
      by_cases hneg : (c.toNat : Int) + offset < 0
      · have hzero : ((c.toNat : Int) + offset).toNat = 0 := by omega
        exact .inr (.inl (Char.ext (UInt32.toNat_inj.mp hzero)))
      · have hcode : (Char.ofNatAux _ hvalid).toNat = ((c.toNat : Int) + offset).toNat := rfl
        refine .inr (.inr ⟨_, List.mem_of_find?_eq_some hfind, ?_⟩)
        rw [hcode]
        dsimp only
        omega
    · rw [dif_neg hvalid]
      exact .inr (.inl rfl)
  · exact .inl rfl

/-- The characters that mean something in paths and in references. -/
def pathMarks : List Char :=
  ['/', '?', '#', '%']

section Marks

variable {d : Char}

/-- All runs of letters have their small letters beyond the marks. -/
theorem lt_lowerRanges (hd : d ∈ pathMarks) : ∀ r ∈ lowerRanges, (d.toNat : Int) < r.1 + r.2.2.2 := by
  have hall : (pathMarks.all fun d => lowerRanges.all fun r => decide ((d.toNat : Int) < r.1 + r.2.2.2)) =
      true := by
    decide +kernel
  intro r hr
  exact of_decide_eq_true (List.all_eq_true.mp (List.all_eq_true.mp hall d hd) r hr)

/-- Characters that are checked one by one are no marks. -/
theorem mark_not_mem_of_all (hd : d ∈ pathMarks) {cs : List Char}
    (h : cs.all (fun c => !pathMarks.contains c) = true) : d ∉ cs := by
  intro hmem
  have hno := List.all_eq_true.mp h d hmem
  rw [List.contains_iff_mem.mpr hd] at hno
  cases hno

/-- A mark is the small letter of nothing else. -/
theorem lowerChar_eq_mark (hd : d ∈ pathMarks) {c : Char} (h : lowerChar c = d) : c = d := by
  have hnull : Char.ofNat 0 ∉ pathMarks := by decide
  obtain hsame | hzero | ⟨r, hr, hbeyond, -⟩ := lowerChar_cases c
  · exact hsame.symm.trans h
  · exact absurd hd (h ▸ hzero ▸ hnull)
  · have hless := lt_lowerRanges hd r hr
    rw [h] at hbeyond
    omega

/-- Lowercase brings no mark in. -/
theorem mark_not_mem_lowerAfter (hd : d ∈ pathMarks) {cs : List Char} (h : d ∉ cs) :
    ∀ before, d ∉ lowerAfter before cs := by
  have hspecial : d ∉ ['σ', 'ς', 'i', '\u0307'] := mark_not_mem_of_all hd (by decide)
  induction cs with
  | nil => exact fun _ => List.not_mem_nil
  | cons c rest ih =>
    intro before hmem
    have hc : c ≠ d := fun he => h (he ▸ List.mem_cons_self)
    rw [lowerAfter] at hmem
    rcases List.mem_append.mp hmem with hmapped | hrest
    · split at hmapped
      · have hsigma : d = sigma before rest := List.mem_singleton.mp hmapped
        rw [sigma] at hsigma
        split at hsigma
        · exact hspecial (by simp [hsigma])
        · exact hspecial (by simp [hsigma])
      · split at hmapped
        · exact hspecial (List.mem_cons_of_mem _ (List.mem_cons_of_mem _ hmapped))
        · exact hc (lowerChar_eq_mark hd (List.mem_singleton.mp hmapped).symm)
    · exact ih (fun hm => h (List.mem_cons_of_mem c hm)) _ hrest

end Marks

end Text

namespace Page

/-- **A slug has the marks only that its name has.** -/
theorem mark_not_mem_slug {d : Char} (hd : d ∈ Text.pathMarks) {name : String} (h : d ∉ name.toList) :
    d ∉ (slug name).toList := by
  simp only [slug]
  split
  · exact Text.mark_not_mem_of_all hd (by decide)
  · rw [String.toList_ofList]
    refine Text.mark_not_mem_lowerAfter hd (fun hmem => ?_) []
    rcases Text.mem_joinRuns hmem with hmark | hmem
    · have hhyphen : d ∉ ['-'] := Text.mark_not_mem_of_all hd (by decide)
      exact hhyphen (List.mem_singleton.mpr hmark)
    · exact h (Text.mem_of_mem_trim hmem)

/-! ## Candidates -/

theorem toList_candidate (base : String) (i : Nat) :
    (candidate base i).toList =
      base.toList ++ ((if i = 0 then [] else '-' :: Nat.toDigits 10 (i + 1)) ++ ".html".toList) := by
  rw [candidate]
  split
  · rw [String.toList_append, List.nil_append]
  · simp only [String.toList_append, toList_toString, List.append_assoc]
    rfl

/-- The candidates of a slug are all different. -/
theorem candidate_injective (base : String) : (candidate base).Injective := by
  intro i j h
  have hlist := congrArg String.toList h
  rw [toList_candidate, toList_candidate] at hlist
  have hnumber := List.append_cancel_right (List.append_cancel_left hlist)
  split at hnumber
  · next hi =>
    split at hnumber
    · next hj => rw [hi, hj]
    · cases hnumber
  · split at hnumber
    · cases hnumber
    · have hdigits := congrArg (fun digits => Nat.ofDigitChars 10 digits 0) (List.cons.inj hnumber).2
      simpa using hdigits

theorem isTaken_eq_false_iff {used : List String} {fileName : String} :
    isTaken used fileName = false ↔ fileName ∉ used ∧ fileName ≠ "index.html" := by
  simp [isTaken]

/-- Of more candidates than names in use, one is free. -/
theorem exists_free (base : String) (used : List String) :
    ∃ i ∈ List.range (used.length + 2), isTaken used (candidate base i) = false := by
  by_contra hall
  -- else all these candidates, which differ, would be among fewer names
  have hsub : (List.range (used.length + 2)).map (candidate base) ⊆ "index.html" :: used := by
    intro fileName hmem
    obtain ⟨i, hi, rfl⟩ := List.mem_map.mp hmem
    have htaken : isTaken used (candidate base i) ≠ false := fun hfree => hall ⟨i, hi, hfree⟩
    rw [ne_eq, isTaken_eq_false_iff, not_and_or, not_not, not_not] at htaken
    rcases htaken with hused | hindex
    · exact List.mem_cons_of_mem _ hused
    · exact hindex ▸ List.mem_cons_self
  have hnodup : ((List.range (used.length + 2)).map (candidate base)).Nodup :=
    List.Nodup.map (candidate_injective base) List.nodup_range
  have hlength := (hnodup.subperm hsub).length_le
  rw [List.length_map, List.length_range, List.length_cons] at hlength
  omega

/-- **The file name that is chosen is free**, and it is a candidate of the slug. -/
theorem unusedFileName_free (name : String) (used : List String) :
    ∃ i, unusedFileName name used = candidate (slug name) i ∧
      unusedFileName name used ∉ used ∧ unusedFileName name used ≠ "index.html" := by
  obtain ⟨i, hi, hfree⟩ := exists_free (slug name) used
  rw [unusedFileName]
  rcases hfind : (List.range (used.length + 2)).find? fun i =>
      !isTaken used (candidate (slug name) i) with _ | j
  · have hnone := List.find?_eq_none.mp hfind i hi
    rw [hfree] at hnone
    exact absurd rfl hnone
  · refine ⟨j, rfl, isTaken_eq_false_iff.mp ?_⟩
    have hsome := List.find?_some hfind
    rwa [Bool.not_eq_true'] at hsome

/-- File names of designs end alike. -/
theorem getLast?_unusedFileName (name : String) (used : List String) :
    (unusedFileName name used).toList.getLast? = some 'l' := by
  obtain ⟨i, hi, -⟩ := unusedFileName_free name used
  rw [hi, toList_candidate, ← List.append_assoc, List.getLast?_append]
  rfl

/-- The candidates of a slug have the marks only that it has. -/
theorem mark_not_mem_candidate {d : Char} (hd : d ∈ Text.pathMarks) {base : String} (h : d ∉ base.toList)
    (i : Nat) : d ∉ (candidate base i).toList := by
  have hhyphen : d ∉ ['-'] := Text.mark_not_mem_of_all hd (by decide)
  have hend : d ∉ ".html".toList := Text.mark_not_mem_of_all hd (by decide)
  have hdigits : Text.pathMarks.all (fun c => !c.isDigit) = true := by decide
  rw [toList_candidate, List.mem_append, List.mem_append]
  rintro (hbase | hnumber | hmem)
  · exact h hbase
  · split at hnumber
    · exact absurd hnumber List.not_mem_nil
    · rcases List.mem_cons.mp hnumber with he | hdigit
      · exact hhyphen (List.mem_singleton.mpr he)
      · have hno := List.all_eq_true.mp hdigits d hd
        rw [Nat.isDigit_of_mem_toDigits (by decide) (by decide) hdigit] at hno
        cases hno
  · exact hend hmem

/-- **A file name has the marks only that its name has.** -/
theorem mark_not_mem_unusedFileName {d : Char} (hd : d ∈ Text.pathMarks) {name : String}
    (h : d ∉ name.toList) (used : List String) : d ∉ (unusedFileName name used).toList := by
  obtain ⟨i, hi, -⟩ := unusedFileName_free name used
  rw [hi]
  exact mark_not_mem_candidate hd (mark_not_mem_slug hd h) i

/-- **The file name of a name without slashes** is one component of a path. -/
theorem isPlain_unusedFileName {name : String} (h : '/' ∉ name.toList) (used : List String) :
    Path.IsPlain (unusedFileName name used) := by
  -- it ends in a letter, so it is neither empty nor dots
  have hlast := getLast?_unusedFileName name used
  have hend : ∀ s : String, s.toList.getLast? ≠ some 'l' → unusedFileName name used ≠ s := by
    intro s hs he
    exact hs (he ▸ hlast)
  refine Path.isPlain_of_not_mem ?_ (hend "" (by decide)) (hend "." (by decide)) (hend ".." (by decide))
  exact mark_not_mem_unusedFileName (by decide) h used

end Page

end DesignMarkup
