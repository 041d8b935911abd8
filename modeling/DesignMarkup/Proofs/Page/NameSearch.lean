import DesignMarkup.Proofs.Page.FileName
import Mathlib.Data.List.Nodup
import Mathlib.Logic.Relation

/-!
# `Proofs.Page.NameSearch` — file names taken in turn

The search for a file name goes from one candidate to the next as long as the candidates are taken, and
nothing in it says where it stops. It stops because only finitely many names are in use while the candidates
are all different. The candidate at which it stops is the first one that is free, and since it is in use from
then on, names that are taken in turn get different files, whatever the names look like.

## Contents

* `Round`, `rounds_iff`, `Rounds.le`: **the rounds of a search**, and how many there can be;
* `Finds`, `IsFirstFree`, `Finds.isFirstFree`, `finds_unusedFileName`: where it stops;
* `TakenInTurn`, `TakenInTurn.nodup`, `fileNames_unique`: **names that are taken in turn**.
-/

namespace DesignMarkup.Page

/-! ## The rounds of a search -/

/-- A file name is free if it is neither in use nor that of an index. -/
def IsFree (used : List String) (fileName : String) : Prop :=
  fileName ∉ used ∧ fileName ≠ "index.html"

/-- A round of the search among the candidates of a slug: one that is not free gives way to the next. -/
inductive Round (used : List String) (base : String) : Nat → Nat → Prop where
  | next {i : Nat} (h : ¬IsFree used (candidate base i)) : Round used base i (i + 1)

/-- Any number of rounds. -/
abbrev Rounds (used : List String) (base : String) : Nat → Nat → Prop :=
  Relation.ReflTransGen (Round used base)

section Rounds

variable {used : List String} {base : String} {i : Nat}

theorem not_isFree_iff {fileName : String} : ¬IsFree used fileName ↔ isTaken used fileName = true := by
  simp [IsFree, isTaken]
  tauto

/-- A search that has come to a candidate has passed the candidates before it, and these were not free. -/
theorem rounds_iff : Rounds used base 0 i ↔ ∀ j < i, ¬IsFree used (candidate base j) := by
  constructor
  · intro h
    induction h with
    | refl =>
      intro j hj
      exact absurd hj (Nat.not_lt_zero j)
    | tail _ hround ih =>
      cases hround with
      | next hlast =>
        intro j hj
        rcases Nat.lt_succ_iff_lt_or_eq.mp hj with hj | rfl
        · exact ih j hj
        · exact hlast
  · intro h
    induction i with
    | zero => exact .refl
    | succ i ih =>
      have hbefore : Rounds used base 0 i := ih fun j hj => h j (Nat.lt_succ_of_lt hj)
      exact hbefore.tail (.next (h i (Nat.lt_succ_self i)))

/-- **A search has no more rounds than there are names in use**, and one for the index. -/
theorem Rounds.le (h : Rounds used base 0 i) : i ≤ used.length + 1 := by
  by_contra hi
  obtain ⟨j, hj, hfree⟩ := exists_free base used
  have hlt : j < i := by
    have := List.mem_range.mp hj
    omega
  apply rounds_iff.mp h j hlt
  exact isTaken_eq_false_iff.mp hfree

end Rounds

/-! ## Where a search stops -/

/-- **The search finds a file name**: it cannot go on forever, and where it stops, because there is no further
round, is that name. -/
structure Finds (used : List String) (base fileName : String) : Prop where
  bounded : ∀ i, Rounds used base 0 i → i ≤ used.length + 1
  stops : ∃ i, Rounds used base 0 i ∧ (∀ j, ¬Round used base i j) ∧ candidate base i = fileName

/-- **The first free file name of a slug**: the slug itself if that is free, and otherwise the slug with the
least number from two upwards with which it is free. -/
structure IsFirstFree (used : List String) (base fileName : String) : Prop where
  free : IsFree used fileName
  plain : IsFree used (base ++ ".html") → fileName = base ++ ".html"
  numbered : ¬IsFree used (base ++ ".html") → ∃ n, 2 ≤ n ∧ fileName = base ++ "-" ++ toString n ++ ".html" ∧
    ∀ m, 2 ≤ m → m < n → ¬IsFree used (base ++ "-" ++ toString m ++ ".html")

section Stop

variable {used : List String} {base fileName : String}

theorem candidate_succ (i : Nat) :
    candidate base (i + 1) = base ++ "-" ++ toString (i + 2) ++ ".html" := by
  unfold candidate
  rw [if_neg (Nat.succ_ne_zero i)]

/-- A search finds one name at most, and it is the first free one. -/
theorem Finds.isFirstFree (h : Finds used base fileName) : IsFirstFree used base fileName := by
  obtain ⟨i, hrounds, hstop, rfl⟩ := h.stops
  have hpassed := rounds_iff.mp hrounds
  have hfree : IsFree used (candidate base i) := by
    by_contra htaken
    exact hstop (i + 1) (.next htaken)
  constructor
  case free => exact hfree
  case plain =>
    intro hplain
    cases i with
    | zero => rfl
    | succ i => exact absurd hplain (hpassed 0 (Nat.succ_pos i))
  case numbered =>
    intro htaken
    cases i with
    | zero => exact absurd hfree htaken
    | succ i =>
      refine ⟨i + 2, Nat.le_add_left 2 i, candidate_succ i, ?_⟩
      intro m hm hlt
      obtain ⟨k, rfl⟩ := Nat.exists_eq_add_of_le' hm
      rw [← candidate_succ]
      apply hpassed
      omega

/-- **The file name that is chosen is the one that the search finds.** -/
theorem finds_unusedFileName (name : String) (used : List String) :
    Finds used (slug name) (unusedFileName name used) := by
  refine ⟨fun i hrounds => hrounds.le, ?_⟩
  obtain ⟨i, hi, hfree⟩ := exists_free (slug name) used
  rw [unusedFileName]
  rcases hfind : (List.range (used.length + 2)).find? fun i =>
      !isTaken used (candidate (slug name) i) with _ | k
  · have hnone := List.find?_eq_none.mp hfind i hi
    simp [hfree] at hnone
  · obtain ⟨hk, -, hbefore⟩ := List.find?_range_eq_some.mp hfind
    refine ⟨k, rounds_iff.mpr ?_, ?_, rfl⟩
    · intro j hj
      have htaken := hbefore j hj
      rw [not_isFree_iff]
      simpa using htaken
    · intro j hround
      cases hround with
      | next htaken =>
        rw [not_isFree_iff] at htaken
        simp [htaken] at hk

end Stop

/-! ## Names taken in turn -/

/-- **Files for names in turn**: for each name the search finds the file, among all that are in use by then. -/
inductive TakenInTurn : (used names files : List String) → Prop where
  | nil {used : List String} : TakenInTurn used [] []
  | cons {used names files : List String} {name fileName : String} :
    Finds used (slug name) fileName → IsFirstFree used (slug name) fileName →
    TakenInTurn (fileName :: used) names files →
    TakenInTurn used (name :: names) (fileName :: files)

section Turn

variable {used names files : List String}

/-- The files are free in the beginning, -/
theorem TakenInTurn.free (h : TakenInTurn used names files) : ∀ f ∈ files, IsFree used f := by
  induction h with
  | nil =>
    intro f hf
    exact absurd hf List.not_mem_nil
  | cons _ hfirst _ ih =>
    intro f hf
    rcases List.mem_cons.mp hf with rfl | hf
    · exact hfirst.free
    · obtain ⟨hnew, hindex⟩ := ih f hf
      exact ⟨fun hmem => hnew (List.mem_cons_of_mem _ hmem), hindex⟩

/-- **and they are all different**: each is in use for those after it. -/
theorem TakenInTurn.nodup (h : TakenInTurn used names files) : files.Nodup := by
  induction h with
  | nil => exact List.nodup_nil
  | cons _ _ hrest ih =>
    refine List.nodup_cons.mpr ⟨?_, ih⟩
    intro hmem
    exact (hrest.free _ hmem).1 List.mem_cons_self

/-- One name is taken, and then the others. -/
theorem run_takeFileNames_cons (name : String) (names used : List String) :
    (takeFileNames (name :: names)).run used =
      let rest := (takeFileNames names).run (unusedFileName name used :: used)
      (unusedFileName name used :: rest.1, rest.2) := by
  rw [takeFileNames, List.mapM_cons]
  rfl

/-- Files are taken in turn, and they are in use afterwards, the last one first. -/
theorem run_takeFileNames (names used : List String) :
    ∃ files, (takeFileNames names).run used = (files, files.reverse ++ used) ∧
      TakenInTurn used names files := by
  induction names generalizing used with
  | nil => exact ⟨[], rfl, .nil⟩
  | cons name names ih =>
    have hfinds := finds_unusedFileName name used
    obtain ⟨files, hrun, hturn⟩ := ih (unusedFileName name used :: used)
    refine ⟨unusedFileName name used :: files, ?_, .cons hfinds hfinds.isFirstFree hturn⟩
    rw [run_takeFileNames_cons, hrun]
    simp

/-- **File names that are taken in turn are all different**, whatever the names are and whatever is in use before.
For each name the search comes to an end, at the first free file name of its slug, and this one is in use from then
on; none is in use before, and none is that of an index. -/
theorem fileNames_unique (names used : List String) :
    ∃ files, (takeFileNames names).run used = (files, files.reverse ++ used) ∧
      TakenInTurn used names files ∧ files.Nodup ∧ ∀ f ∈ files, f ∉ used ∧ f ≠ "index.html" := by
  obtain ⟨files, hrun, hturn⟩ := run_takeFileNames names used
  exact ⟨files, hrun, hturn, hturn.nodup, hturn.free⟩

/-- A name may look like one that the search makes. -/
example : ((takeFileNames ["a", "A", "a-2", "Index"]).run ["b.html"]).run =
    (["a.html", "a-2.html", "a-2-2.html", "index-2.html"],
      ["index-2.html", "a-2-2.html", "a-2.html", "a.html", "b.html"]) := by
  decide +kernel

end Turn

end DesignMarkup.Page
