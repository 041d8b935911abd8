import DesignMarkup.Files.Store
import DesignMarkup.Proofs.Outcome

/-!
# `Proofs.Files.Store` — stores as trees, and ways through them

A store is a tree if whatever stands at a place stands in a folder. Entries are put where no folder stands,
in a folder that is there, and then the store stays a tree, and every way that led somewhere leads there
still: a way depends on the folders that it passes, and these stay.

## Contents

* `Store.find_put`: what stands where after an entry was put;
* `Store.IsTree`, `isTree_put`: **stores that are trees**;
* `Store.Keeps`, `Store.Grows`: folders that stay, and everything that stays;
* `walk_append`, `walk_concat_eq_ok`, `walk_of_keeps`: ways;
* `Store.Leads`, `resolve_of_keeps`: ways of paths;
* `FileError.Missing`, `Store.Lacks`, `Leads.not_lacks_below`: **nothing is missing below a folder**.
-/

namespace DesignMarkup

/-- The error tells of something that is missing. -/
def FileError.Missing (e : FileError) : Prop :=
  ∃ path, e = .fault .notFound path

@[simp] theorem FileError.missing_fault_iff {f : FileFault} {path : String} :
    (fault f path).Missing ↔ f = .notFound := by
  simp [Missing]

@[simp] theorem FileError.not_missing_nullInPath : ¬nullInPath.Missing :=
  nofun

namespace Store

/-! ## Entries -/

theorem find_root (s : Store) : s.find [] = some .folder :=
  if_pos rfl

/-- After an entry was put at a place it stands there, and everywhere else all is as before. -/
theorem find_put (s : Store) {place : List String} (h : place ≠ []) (e : Entry) (q : List String) :
    (s.put place e).find q = if q = place then some e else s.find q := by
  by_cases hroot : q = []
  · rw [hroot, find_root, find_root, if_neg (Ne.symm h)]
  · rw [find, if_neg hroot, find, if_neg hroot]
    split
    · next heq =>
      rw [heq]
      exact Entries.get?_put_self
    · next hne => exact Entries.get?_put_of_ne hne

theorem find_put_self (s : Store) {place : List String} (h : place ≠ []) (e : Entry) :
    (s.put place e).find place = some e := by
  rw [find_put s h, if_pos rfl]

/-- At the root stands a folder, so where no folder stands is not the root. -/
theorem ne_root_of_find {s : Store} {place : List String} (h : s.find place ≠ some .folder) :
    place ≠ [] :=
  fun he => h (he ▸ s.find_root)

/-! ## Trees -/

/-- **The store is a tree**: whatever stands at a place stands in a folder. -/
def IsTree (s : Store) : Prop :=
  ∀ place e, s.find place = some e → s.find place.dropLast = some .folder

/-- An entry that is put where no folder stands, in a folder that is there, keeps a store a tree. -/
theorem IsTree.put {s : Store} (hs : s.IsTree) {place : List String}
    (hfree : s.find place ≠ some .folder) (habove : s.find place.dropLast = some .folder) (e : Entry) :
    (s.put place e).IsTree := by
  have hne := ne_root_of_find hfree
  -- a folder is never the place itself, so it stands after the entry was put as it did before
  have hstays : ∀ q, s.find q = some .folder → (s.put place e).find q = some .folder := by
    intro q hq
    rw [find_put s hne, if_neg (fun he : q = place => hfree (he ▸ hq))]
    exact hq
  intro q e' hq
  rw [find_put s hne] at hq
  split at hq
  · next heq =>
    rw [heq]
    exact hstays _ habove
  · exact hstays _ (hs q e' hq)

/-! ## What stays -/

/-- The working folder and all folders stay. -/
structure Keeps (s s' : Store) : Prop where
  here : s'.workingFolder = s.workingFolder
  folders : ∀ place, s.find place = some .folder → s'.find place = some .folder

/-- The working folder and all folders and files stay. -/
structure Grows (s s' : Store) : Prop where
  here : s'.workingFolder = s.workingFolder
  entries : ∀ place e, s.find place = some e → s'.find place = some e

section Stays

variable {s s₁ s₂ : Store} {place : List String} {e : Entry}

theorem Grows.keeps (h : s.Grows s₁) : s.Keeps s₁ :=
  ⟨h.here, fun q hq => h.entries q _ hq⟩

theorem grows_refl (s : Store) : s.Grows s :=
  ⟨rfl, fun _ _ h => h⟩

theorem Grows.trans (h : s.Grows s₁) (h' : s₁.Grows s₂) : s.Grows s₂ :=
  ⟨h'.here.trans h.here, fun q e he => h'.entries q e (h.entries q e he)⟩

theorem Keeps.trans (h : s.Keeps s₁) (h' : s₁.Keeps s₂) : s.Keeps s₂ :=
  ⟨h'.here.trans h.here, fun q hq => h'.folders q (h.folders q hq)⟩

/-- A store grows by an entry at a place that is free. -/
theorem grows_put (h : s.find place = none) (e : Entry) : s.Grows (s.put place e) := by
  have hne : place ≠ [] := ne_root_of_find (by rw [h]; exact nofun)
  refine ⟨rfl, fun q e' he' => ?_⟩
  rw [find_put s hne, if_neg (fun heq => by rw [heq, h] at he'; cases he')]
  exact he'

/-- All folders stay if an entry is put where no folder stands. -/
theorem keeps_put (h : s.find place ≠ some .folder) (e : Entry) : s.Keeps (s.put place e) := by
  refine ⟨rfl, fun q hq => ?_⟩
  rw [find_put s (ne_root_of_find h), if_neg (fun he : q = place => h (he ▸ hq))]
  exact hq

end Stays

/-! ## Ways -/

section Walk

variable {s s' : Store} {place q : List String}

/-- A way along some components and then along others. -/
theorem walk_append (s : Store) (place xs ys : List String) :
    s.walk place (xs ++ ys) = s.walk place xs >>= fun q => s.walk q ys := by
  induction xs generalizing place with
  | nil => rfl
  | cons c xs ih =>
    rw [List.cons_append, walk, walk]
    split
    · rfl
    · rfl
    · split
      · exact ih _
      · split
        · rfl
        · exact ih _

/-- One more component from a folder. -/
theorem walk_singleton (h : s.find q = some .folder) (c : String) :
    s.walk q [c] =
      if c = ".." then .ok q.dropLast
      else if maxComponent < c.utf8ByteSize then .error .nameTooLong
      else .ok (q ++ [c]) := by
  rw [walk, h]
  rfl

/-- A way along one more component leaves from a folder. -/
theorem walk_concat_eq_ok {xs : List String} {c : String}
    (h : s.walk place (xs ++ [c]) = .ok q) :
    ∃ d, s.walk place xs = .ok d ∧ s.find d = some .folder ∧
      q = if c = ".." then d.dropLast else d ++ [c] := by
  rw [walk_append] at h
  obtain ⟨d, hd, h⟩ := bind_eq_ok.mp h
  have hfolder : s.find d = some .folder := by
    rw [walk] at h
    split at h
    · cases h
    · cases h
    · assumption
  rw [walk_singleton hfolder] at h
  refine ⟨d, hd, hfolder, ?_⟩
  split at h
  · next hup => rw [if_pos hup, Except.ok.inj h]
  · next hup =>
    split at h
    · cases h
    · rw [if_neg hup, Except.ok.inj h]

/-- **A way leads on to where it led** as long as all folders stay. -/
theorem walk_of_keeps (hkeeps : s.Keeps s') {xs : List String} (h : s.walk place xs = .ok q) :
    s'.walk place xs = .ok q := by
  induction xs generalizing place with
  | nil => exact h
  | cons c xs ih =>
    rw [walk] at h
    split at h
    · cases h
    · cases h
    · next hfolder =>
      rw [walk, hkeeps.folders place hfolder]
      split at h
      · next hup =>
        simp only [if_pos hup]
        exact ih h
      · next hup =>
        split at h
        · cases h
        · next hlen =>
          simp only [if_neg hup, if_neg hlen]
          exact ih h

end Walk

/-! ## Ways of paths -/

/-- Where the way of a path starts. -/
def start (s : Store) (p : Path) : List String :=
  if p.root = "" then s.workingFolder else []

/-- The way of a path leads to a folder. -/
def Leads (s : Store) (p : Path) : Prop :=
  ∃ place, s.walk (s.start p) p.parts = .ok place ∧ s.find place = some .folder

section Paths

variable {s s' : Store} {p : Path} {place : List String}

/-- A path is refused as it is written, or else its way decides. -/
theorem resolve_cases (p : Path) :
    (∃ e, (∀ s' : Store, s'.resolve p = .error e) ∧ ¬e.Missing) ∨
      ∀ s' : Store, s'.resolve p = (s'.walk (s'.start p) p.parts).mapError (.fault · p.text) := by
  -- neither of the two checks that come first looks at the store
  by_cases hnull : (p.parts.any fun c => c.toList.contains '\x00') = true
  · exact .inl ⟨.nullInPath, fun s' => if_pos hnull, FileError.not_missing_nullInPath⟩
  · by_cases hlong : maxPath < p.text.utf8ByteSize
    · refine .inl ⟨.fault .nameTooLong p.text, fun s' => ?_, by simp⟩
      rw [resolve, if_neg hnull, if_pos hlong]
    · refine .inr fun s' => ?_
      rw [resolve, if_neg hnull, if_neg hlong]
      rfl

theorem walk_of_resolve (h : s.resolve p = .ok place) : s.walk (s.start p) p.parts = .ok place := by
  obtain ⟨e, he, -⟩ | hwalk := resolve_cases p
  · cases (he s).symm.trans h
  · exact mapError_eq_ok.mp ((hwalk s).symm.trans h)

theorem start_of_keeps (h : s.Keeps s') (p : Path) : s'.start p = s.start p := by
  rw [start, start, h.here]

/-- A path names the place that it named as long as all folders stay. -/
theorem resolve_of_keeps (hkeeps : s.Keeps s') (h : s.resolve p = .ok place) :
    s'.resolve p = .ok place := by
  have hway := walk_of_keeps hkeeps (walk_of_resolve h)
  obtain ⟨e, he, -⟩ | hwalk := resolve_cases p
  · cases (he s).symm.trans h
  · rw [hwalk, start_of_keeps hkeeps, hway]
    rfl

theorem Leads.of_keeps (hkeeps : s.Keeps s') (h : s.Leads p) : s'.Leads p := by
  obtain ⟨place, hway, hfolder⟩ := h
  refine ⟨place, ?_, hkeeps.folders place hfolder⟩
  rw [start_of_keeps hkeeps]
  exact walk_of_keeps hkeeps hway

/-- Something is missing for an operation at a path: on its way, or the folder in which an entry would be
put. -/
def Lacks (s : Store) (p : Path) : Prop :=
  (∃ e, s.resolve p = .error e ∧ e.Missing) ∨
    ∃ place, s.resolve p = .ok place ∧ s.find place = none ∧ s.find place.dropLast = none

/-- Nothing is missing at a folder. -/
theorem Leads.not_lacks (h : s.Leads p) : ¬s.Lacks p := by
  obtain ⟨place, hway, hfolder⟩ := h
  obtain ⟨e, he, hne⟩ | hwalk := resolve_cases p
  · rintro (⟨e', he', hmissing⟩ | ⟨q, hq, -⟩)
    · obtain rfl := Except.error.inj ((he s).symm.trans he')
      exact hne hmissing
    · cases (he s).symm.trans hq
  · rw [Lacks, hwalk, hway]
    rintro (⟨e', he', -⟩ | ⟨q, hq, hnone, -⟩)
    · cases he'
    · obtain rfl := Except.ok.inj hq
      cases hfolder.symm.trans hnone

/-- **Nothing is missing right below a folder of a tree**: the last component is refused for its length,
or it leads to the folder above, or to a place in the folder. -/
theorem Leads.not_lacks_concat (hs : s.IsTree) {root : String} {xs : List String}
    (h : s.Leads ⟨root, xs⟩) (c : String) : ¬s.Lacks ⟨root, xs ++ [c]⟩ := by
  obtain ⟨d, hway, hfolder⟩ := h
  have hway' : s.walk (s.start ⟨root, xs ++ [c]⟩) xs = .ok d := hway
  rintro (⟨e, he, hmissing⟩ | ⟨place, hplace, hnone, habove⟩)
  · obtain ⟨e', he', hne⟩ | hwalk := resolve_cases ⟨root, xs ++ [c]⟩
    · obtain rfl := Except.error.inj ((he' s).symm.trans he)
      exact hne hmissing
    · obtain ⟨path, rfl⟩ := hmissing
      rw [hwalk, walk_append, hway'] at he
      change (s.walk d [c]).mapError _ = _ at he
      rw [walk_singleton hfolder] at he
      split at he
      · cases he
      · split at he
        · cases he
        · cases he
  · -- the last component leads up, where a folder of the tree stands, or to a place in the folder
    obtain ⟨d', hd', -, hq⟩ := walk_concat_eq_ok (walk_of_resolve hplace)
    obtain rfl := Except.ok.inj (hway'.symm.trans hd')
    split at hq
    · rw [hq, hs d _ hfolder] at hnone
      cases hnone
    · rw [hq, List.dropLast_concat, hfolder] at habove
      cases habove

/-- Nothing is missing at a path if the folder above it is there. -/
theorem Leads.not_lacks_below (hs : s.IsTree) (h : s.Leads p.parent) : ¬s.Lacks p := by
  obtain ⟨root, parts⟩ := p
  obtain rfl | ⟨xs, c, rfl⟩ := List.eq_nil_or_concat parts
  · exact h.not_lacks
  · rw [Path.parent, List.concat_eq_append, List.dropLast_concat] at h
    rw [List.concat_eq_append]
    exact h.not_lacks_concat hs c

end Paths

end Store

end DesignMarkup
