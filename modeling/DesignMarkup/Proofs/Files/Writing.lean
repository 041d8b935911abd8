import DesignMarkup.Proofs.Files.Store

/-!
# `Proofs.Files.Writing` — what making folders and writing files changes

An operation succeeds and has then changed what it is about, or it fails. Making folders only adds folders,
and writing a file replaces a file at most. In a store that is a tree, an operation that fails because
something is missing has changed nothing at all: as soon as it has made a folder, nothing right below that
folder is missing any more.

## Contents

* `makeFolder_cases`, `unlessFolder_cases`, `tryMake_cases`: one folder;
* `Store.Made`, `makeFolders_cases`: **folders and the folders above them**;
* `putFile_cases`, `Store.Wrote`, `writeFile_cases`: **a text file**;
* `IsTree.seed`, `isTree_empty`: stores from given files are trees.
-/

namespace DesignMarkup

/-! ## One folder -/

theorem run_resolveNow (p : Path) (s : Store) :
    (resolveNow p).run s = ((s.resolve p).map fun place => (place, s.find place), s) := by
  rw [resolveNow, run_get_bind]
  cases s.resolve p <;> rfl

section OneFolder

variable {p : Path} {s : Store}

/-- A path that cannot be resolved stops what comes after. -/
theorem run_resolveNow_error {α : Type} {e : FileError} (h : s.resolve p = .error e)
    (f : List String × Option Entry → Filing α) :
    (resolveNow p >>= f).run s = (.error e, s) := by
  apply run_bind_error
  rw [run_resolveNow, h]
  rfl

theorem run_resolveNow_ok {α : Type} {place : List String} (h : s.resolve p = .ok place)
    (f : List String × Option Entry → Filing α) :
    (resolveNow p >>= f).run s = (f (place, s.find place)).run s := by
  apply run_bind_ok
  rw [run_resolveNow, h]
  rfl

variable (p s)

/-- **Making a folder** puts it where nothing stands, in a folder, or changes nothing. -/
theorem makeFolder_cases :
    (∃ place, s.resolve p = .ok place ∧ s.find place = none ∧
      s.find place.dropLast = some .folder ∧
      (makeFolder p).run s = (.ok (), s.put place .folder)) ∨
      ∃ e, (makeFolder p).run s = (.error e, s) ∧ (e.Missing → s.Lacks p) := by
  rw [makeFolder]
  cases hp : s.resolve p with
  | error e =>
    rw [run_resolveNow_error hp]
    exact .inr ⟨e, rfl, fun hmissing => .inl ⟨e, hp, hmissing⟩⟩
  | ok place =>
    rw [run_resolveNow_ok hp]
    cases hfind : s.find place with
    | some found => exact .inr ⟨_, rfl, by simp⟩
    | none =>
      simp only [run_get_bind]
      rcases habove : s.find place.dropLast with _ | ⟨content⟩ | _
      · exact .inr ⟨_, rfl, fun _ => .inr ⟨place, hp, hfind, habove⟩⟩
      · exact .inr ⟨_, rfl, by simp⟩
      · exact .inl ⟨place, rfl, hfind, habove, rfl⟩

/-- Where a folder is looked for there is one, or there is none, or the path is refused. -/
theorem hasFolder_cases :
    (s.hasFolder p = .ok true ∧ s.Leads p) ∨ s.hasFolder p = .ok false ∨
      ∃ e, s.hasFolder p = .error e ∧ ¬e.Missing := by
  rw [Store.hasFolder]
  cases hp : s.resolve p with
  | ok place =>
    by_cases hfolder : s.find place = some .folder
    · exact .inl ⟨congrArg _ (beq_iff_eq.mpr hfolder), place, Store.walk_of_resolve hp, hfolder⟩
    · exact .inr (.inl (congrArg _ (beq_eq_false_iff_ne.mpr hfolder)))
  | error e =>
    split
    · next h => cases h
    · exact .inr (.inr ⟨_, rfl, by simp⟩)
    · exact .inr (.inl rfl)

/-- Passing over a failure changes nothing, and if it succeeds there is a folder at the path. -/
theorem unlessFolder_cases (e : FileError) :
    ((unlessFolder p e).run s = (.ok (), s) ∧ s.Leads p) ∨
      ∃ e', (unlessFolder p e).run s = (.error e', s) ∧ (e'.Missing → e.Missing) := by
  cases e with
  | nullInPath => exact .inr ⟨.nullInPath, rfl, id⟩
  | fault f path =>
    simp only [unlessFolder, run_get_bind]
    obtain ⟨h, hleads⟩ | h | ⟨e, h, hne⟩ := hasFolder_cases p s
    · rw [h]
      exact .inl ⟨rfl, hleads⟩
    · rw [h]
      exact .inr ⟨_, rfl, id⟩
    · rw [h]
      exact .inr ⟨e, rfl, fun hmissing => absurd hmissing hne⟩

end OneFolder

/-! ## Folders and the folders above them -/

/-- A folder was made, or was there: folders were added at most, and the path leads to one. -/
structure Store.Made (s : Store) (p : Path) (s' : Store) : Prop where
  grows : s.Grows s'
  files : ∀ q b, s'.find q = some (.file b) → s.find q = some (.file b)
  tree : s.IsTree → s'.IsTree
  leads : s'.Leads p

theorem Store.Leads.made {s : Store} {p : Path} (h : s.Leads p) : s.Made p s :=
  ⟨s.grows_refl, fun _ _ => id, id, h⟩

/-- An operation has failed: folders were added at most, a tree is still one, and if something was missing,
nothing has changed. -/
structure Store.Stopped (s : Store) (e : FileError) (s' : Store) : Prop where
  grows : s.Grows s'
  files : ∀ q b, s'.find q = some (.file b) → s.find q = some (.file b)
  tree : s.IsTree → s'.IsTree
  same : s.IsTree → e.Missing → s' = s

theorem Store.stopped_self (s : Store) (e : FileError) : s.Stopped e s :=
  ⟨s.grows_refl, fun _ _ => id, id, fun _ _ => rfl⟩

/-- After a folder was made, an operation that finds nothing missing any more has failed. -/
theorem Store.Made.stopped {s s' : Store} {p : Path} {e : FileError} (h : s.Made p s')
    (hne : s'.IsTree → ¬e.Missing) : s.Stopped e s' :=
  ⟨h.grows, h.files, h.tree, fun hs hmissing => absurd hmissing (hne (h.tree hs))⟩

/-- A folder that was put at its place was made. -/
theorem Store.made_put {s : Store} {p : Path} {place : List String} (hp : s.resolve p = .ok place)
    (hnone : s.find place = none) (habove : s.find place.dropLast = some .folder) :
    s.Made p (s.put place .folder) := by
  have hfree : s.find place ≠ some .folder := by rw [hnone]; exact nofun
  refine ⟨s.grows_put hnone .folder, fun q b hq => ?_, fun hs => hs.put hfree habove .folder, place, ?_, ?_⟩
  · rw [find_put s (ne_root_of_find hfree)] at hq
    split at hq
    · cases hq
    · exact hq
  · rw [start_of_keeps (keeps_put hfree .folder)]
    exact walk_of_keeps (keeps_put hfree .folder) (walk_of_resolve hp)
  · exact s.find_put_self (ne_root_of_find hfree) .folder

/-- What follows a failure to make a folder: if something was missing, `retry`, else the failure is passed
over where a folder stands. -/
def onMissing (p : Path) (retry : FileError → Filing Unit) : FileError → Filing Unit
  | .fault .notFound path => retry (.fault .notFound path)
  | e => unlessFolder p e

theorem onMissing_of_missing {p : Path} {retry : FileError → Filing Unit} {e : FileError}
    (h : e.Missing) : onMissing p retry e = retry e := by
  obtain ⟨path, rfl⟩ := h
  rfl

theorem onMissing_of_not_missing {p : Path} {retry : FileError → Filing Unit} {e : FileError}
    (h : ¬e.Missing) : onMissing p retry e = unlessFolder p e := by
  unfold onMissing
  split
  · next path => exact absurd ⟨path, rfl⟩ h
  · rfl

/-- A handler with the same two answers is the same. -/
theorem eq_onMissing {p : Path} {handle retry : FileError → Filing Unit}
    (hmissing : ∀ e, e.Missing → handle e = retry e)
    (hother : ∀ e, ¬e.Missing → handle e = unlessFolder p e) : handle = onMissing p retry := by
  funext e
  by_cases h : e.Missing
  · rw [hmissing e h, onMissing_of_missing h]
  · rw [hother e h, onMissing_of_not_missing h]

theorem makeFoldersAt_nil (root : String) :
    makeFoldersAt root [] = tryCatch (makeFolder ⟨root, []⟩)
      (onMissing ⟨root, []⟩ (unlessFolder ⟨root, []⟩)) := by
  rw [makeFoldersAt]
  exact congrArg _ (eq_onMissing (fun _ _ => rfl) fun _ _ => rfl)

theorem makeFoldersAt_cons (root c : String) (above : List String) {p : Path}
    (hp : p = ⟨root, (c :: above).reverse⟩) :
    makeFoldersAt root (c :: above) = tryCatch (makeFolder p) (onMissing p fun _ => do
      makeFoldersAt root above
      tryCatch (makeFolder p) (onMissing p throw)) := by
  rw [hp, makeFoldersAt]
  refine congrArg _ (eq_onMissing ?_ ?_)
  · rintro e ⟨path, rfl⟩
    dsimp only
    refine congrArg (makeFoldersAt root above >>= ·) (funext fun _ => congrArg _ (eq_onMissing ?_ ?_))
    · rintro e ⟨path, rfl⟩
      rfl
    · intro e h
      split
      · next path => exact absurd ⟨path, rfl⟩ h
      · rfl
  · intro e h
    split
    · next path => exact absurd ⟨path, rfl⟩ h
    · rfl

/-- **Trying to make a folder**: it was made, or nothing has changed, or something was missing and it is
tried again. -/
theorem tryMake_cases (p : Path) (s : Store) (retry : FileError → Filing Unit) :
    (∃ s', (tryCatch (makeFolder p) (onMissing p retry)).run s = (.ok (), s') ∧ s.Made p s') ∨
      (∃ e, (tryCatch (makeFolder p) (onMissing p retry)).run s = (.error e, s) ∧ ¬e.Missing) ∨
      ∃ e, (tryCatch (makeFolder p) (onMissing p retry)).run s = (retry e).run s ∧ e.Missing ∧
        s.Lacks p := by
  obtain ⟨place, hp, hnone, habove, hrun⟩ | ⟨e, hrun, hlacks⟩ := makeFolder_cases p s
  · exact .inl ⟨_, run_tryCatch_ok hrun, Store.made_put hp hnone habove⟩
  · rw [run_tryCatch_error hrun]
    by_cases hmissing : e.Missing
    · rw [onMissing_of_missing hmissing]
      exact .inr (.inr ⟨e, rfl, hmissing, hlacks hmissing⟩)
    · rw [onMissing_of_not_missing hmissing]
      obtain ⟨h, hleads⟩ | ⟨e', h, hne⟩ := unlessFolder_cases p s e
      · exact .inl ⟨s, h, hleads.made⟩
      · exact .inr (.inl ⟨e', h, fun hmissing' => hmissing (hne hmissing')⟩)

theorem makeFoldersAt_cases (root : String) (reversed : List String) (s : Store) :
    (∃ s', (makeFoldersAt root reversed).run s = (.ok (), s') ∧ s.Made ⟨root, reversed.reverse⟩ s') ∨
      ∃ e s', (makeFoldersAt root reversed).run s = (.error e, s') ∧ s.Stopped e s' := by
  -- on the components from the last one upwards, as folders are made
  induction reversed with
  | nil =>
    rw [makeFoldersAt_nil]
    obtain h | ⟨e, h, -⟩ | ⟨e, h, -, -⟩ := tryMake_cases ⟨root, []⟩ s (unlessFolder ⟨root, []⟩)
    · exact .inl h
    · exact .inr ⟨e, s, h, s.stopped_self e⟩
    · rw [h]
      obtain ⟨h, hleads⟩ | ⟨e', h, -⟩ := unlessFolder_cases ⟨root, []⟩ s e
      · exact .inl ⟨s, h, hleads.made⟩
      · exact .inr ⟨e', s, h, s.stopped_self e'⟩
  | cons c above ih =>
    generalize hp : (⟨root, (c :: above).reverse⟩ : Path) = p
    rw [makeFoldersAt_cons root c above hp.symm]
    obtain h | ⟨e, h, hne⟩ | ⟨e, h, -, -⟩ := tryMake_cases p s fun _ => do
      makeFoldersAt root above
      tryCatch (makeFolder p) (onMissing p throw)
    · exact .inl h
    · exact .inr ⟨e, s, h, s.stopped_self e⟩
    rw [h]
    -- the folders above come first, and then nothing is missing any more
    obtain ⟨s₁, h₁, hmade⟩ | ⟨e, s₁, h₁, hstopped⟩ := ih
    · rw [run_bind_ok h₁]
      obtain ⟨s₂, h₂, hmade₂⟩ | ⟨e, h₂, hne⟩ | ⟨e, h₂, -, hlacks⟩ := tryMake_cases p s₁ throw
      · exact .inl ⟨s₂, h₂, hmade.grows.trans hmade₂.grows,
          fun q b hq => hmade.files q b (hmade₂.files q b hq), hmade₂.tree ∘ hmade.tree, hmade₂.leads⟩
      · exact .inr ⟨e, s₁, h₂, hmade.stopped fun _ => hne⟩
      · -- the second try cannot find anything missing: the folder above has just been made
        refine .inr ⟨e, s₁, h₂, hmade.stopped fun htree => ?_⟩
        rw [← hp, List.reverse_cons] at hlacks
        exact absurd hlacks (hmade.leads.not_lacks_concat htree c)
    · rw [run_bind_error h₁]
      exact .inr ⟨e, s₁, rfl, hstopped⟩

/-- **Folders are made, with the folders above them**, or something fails. -/
theorem makeFolders_cases (p : Path) (s : Store) :
    (∃ s', (makeFolders p).run s = (.ok (), s') ∧ s.Made p s') ∨
      ∃ e s', (makeFolders p).run s = (.error e, s') ∧ s.Stopped e s' := by
  have h := makeFoldersAt_cases p.root p.parts.reverse s
  rw [List.reverse_reverse] at h
  exact h

/-- Nothing is missing where the folder is there already. -/
theorem makeFolders_of_leads {p : Path} {s : Store} (h : s.Leads p) :
    (∃ s', (makeFolders p).run s = (.ok (), s') ∧ s.Made p s') ∨
      ∃ e, (makeFolders p).run s = (.error e, s) ∧ ¬e.Missing := by
  obtain ⟨root, parts⟩ := p
  -- the first try does not fail for anything missing, so there is no other
  have hfirst : ∃ retry, makeFolders ⟨root, parts⟩ =
      tryCatch (makeFolder ⟨root, parts⟩) (onMissing ⟨root, parts⟩ retry) := by
    rw [makeFolders]
    cases hparts : parts.reverse with
    | nil =>
      obtain rfl := List.reverse_eq_nil_iff.mp hparts
      exact ⟨_, makeFoldersAt_nil root⟩
    | cons c above =>
      have hp : parts = (c :: above).reverse := by rw [← hparts, List.reverse_reverse]
      exact ⟨_, makeFoldersAt_cons root c above (congrArg _ hp)⟩
  obtain ⟨retry, hretry⟩ := hfirst
  rw [hretry]
  obtain h' | h' | ⟨e, -, -, hlacks⟩ := tryMake_cases ⟨root, parts⟩ s retry
  · exact .inl h'
  · exact .inr h'
  · exact absurd hlacks h.not_lacks

/-! ## A text file -/

/-- Putting a file puts it where no folder stands, or changes nothing. -/
theorem putFile_cases (p : Path) (content : ByteArray) (s : Store) :
    (∃ place, s.resolve p = .ok place ∧ s.find place ≠ some .folder ∧
      (s.IsTree → s.find place.dropLast = some .folder) ∧
      (putFile p content).run s = (.ok (), s.put place (.file content))) ∨
      ∃ e, (putFile p content).run s = (.error e, s) ∧ (e.Missing → s.Lacks p) := by
  rw [putFile]
  cases hp : s.resolve p with
  | error e =>
    rw [run_resolveNow_error hp]
    exact .inr ⟨e, rfl, fun hmissing => .inl ⟨e, hp, hmissing⟩⟩
  | ok place =>
    rw [run_resolveNow_ok hp]
    rcases hfind : s.find place with _ | ⟨old⟩ | _
    · simp only [run_get_bind]
      rcases habove : s.find place.dropLast with _ | ⟨other⟩ | _
      · exact .inr ⟨_, rfl, fun _ => .inr ⟨place, hp, hfind, habove⟩⟩
      · exact .inr ⟨_, rfl, by simp⟩
      · exact .inl ⟨place, rfl, by rw [hfind]; exact nofun, fun _ => habove, rfl⟩
    · exact .inl ⟨place, rfl, by rw [hfind]; exact nofun, fun hs => hs place _ hfind, rfl⟩
    · exact .inr ⟨_, rfl, by simp⟩

/-- **A file was written**: the path leads to it through folders that were there or were made, all folders
stay, and the files elsewhere are those that were there. -/
structure Store.Wrote (s : Store) (p : Path) (content : ByteArray) (s' : Store) : Prop where
  keeps : s.Keeps s'
  tree : s.IsTree → s'.IsTree
  leads : s'.Leads p.parent
  written : ∃ place, s'.resolve p = .ok place ∧ s'.find place = some (.file content) ∧
    ∀ q b, q ≠ place → (s'.find q = some (.file b) ↔ s.find q = some (.file b))

theorem Store.Made.wrote {s s₁ : Store} {p : Path} {place : List String} {content : ByteArray}
    (h : s.Made p.parent s₁) (hp : s₁.resolve p = .ok place) (hfree : s₁.find place ≠ some .folder)
    (habove : s₁.IsTree → s₁.find place.dropLast = some .folder) :
    s.Wrote p content (s₁.put place (.file content)) where
  keeps := h.grows.keeps.trans (keeps_put hfree _)
  tree := fun hs => (h.tree hs).put hfree (habove (h.tree hs)) _
  leads := h.leads.of_keeps (keeps_put hfree _)
  written := by
    refine ⟨place, resolve_of_keeps (keeps_put hfree _) hp,
      s₁.find_put_self (ne_root_of_find hfree) _, fun q b hq => ?_⟩
    rw [find_put s₁ (ne_root_of_find hfree), if_neg hq]
    exact ⟨h.files q b, h.grows.entries q _⟩

/-- **Putting a file, with the folders above it**, or something fails. -/
theorem makePut_cases (p : Path) (content : ByteArray) (s : Store) :
    (∃ s', (do makeFolders p.parent; putFile p content : Filing Unit).run s = (.ok (), s') ∧
      s.Wrote p content s') ∨
      ∃ e s', (do makeFolders p.parent; putFile p content : Filing Unit).run s = (.error e, s') ∧
        s.Stopped e s' := by
  obtain ⟨s₁, h₁, hmade⟩ | ⟨e, s₁, h₁, hstopped⟩ := makeFolders_cases p.parent s
  · rw [run_bind_ok h₁]
    obtain ⟨place, hp, hfree, habove, h₂⟩ | ⟨e, h₂, hlacks⟩ := putFile_cases p content s₁
    · exact .inl ⟨_, h₂, hmade.wrote hp hfree habove⟩
    · refine .inr ⟨e, s₁, h₂, hmade.stopped fun htree hmissing => ?_⟩
      exact hmade.leads.not_lacks_below htree (hlacks hmissing)
  · rw [run_bind_error h₁]
    exact .inr ⟨e, s₁, rfl, hstopped⟩

/-- **Writing a text file** writes it, or fails. -/
theorem writeFile_cases (p : Path) (content : String) (s : Store) :
    (∃ s', (writeFile p content).run s = (.ok (), s') ∧ s.Wrote p (Text.encodeUtf8 content) s') ∨
      ∃ e s', (writeFile p content).run s = (.error e, s') ∧ s.Stopped e s' :=
  makePut_cases p (Text.encodeUtf8 content) s

/-- Nothing is missing for a file in a folder that is there. -/
theorem writeFile_of_leads {p : Path} {s : Store} (hs : s.IsTree) (h : s.Leads p.parent)
    (content : String) :
    (∃ s', (writeFile p content).run s = (.ok (), s') ∧ s.Wrote p (Text.encodeUtf8 content) s') ∨
      ∃ e s', (writeFile p content).run s = (.error e, s') ∧ ¬e.Missing := by
  rw [writeFile]
  obtain ⟨s₁, h₁, hmade⟩ | ⟨e, h₁, hne⟩ := makeFolders_of_leads h
  · rw [run_bind_ok h₁]
    obtain ⟨place, hp, hfree, habove, h₂⟩ | ⟨e, h₂, hlacks⟩ :=
      putFile_cases p (Text.encodeUtf8 content) s₁
    · exact .inl ⟨_, h₂, hmade.wrote hp hfree habove⟩
    · refine .inr ⟨e, s₁, h₂, fun hmissing => ?_⟩
      exact hmade.leads.not_lacks_below (hmade.tree hs) (hlacks hmissing)
  · rw [run_bind_error h₁]
    exact .inr ⟨e, s, rfl, hne⟩

/-! ## Stores from given files -/

namespace Store

/-- A store into which files were put is a tree if it was one before, whether or not a path was refused. -/
theorem IsTree.seed {s : Store} (hs : s.IsTree) (files : List (String × ByteArray)) :
    (s.seed files).IsTree := by
  induction files generalizing s with
  | nil => exact hs
  | cons file rest ih =>
    refine ih ?_
    show (s.after do makeFolders (Path.read file.1).parent; putFile (Path.read file.1) file.2).IsTree
    obtain ⟨s', h, hwrote⟩ | ⟨e, s', h, hstopped⟩ := makePut_cases (Path.read file.1) file.2 s
    · rw [Store.after, h]
      exact hwrote.tree hs
    · rw [Store.after, h]
      exact hstopped.tree hs

theorem IsTree.seedFolders {s : Store} (hs : s.IsTree) (folders : List String) :
    (s.seedFolders folders).IsTree := by
  induction folders generalizing s with
  | nil => exact hs
  | cons path rest ih =>
    refine ih ?_
    show (s.after (makeFolders (Path.read path))).IsTree
    obtain ⟨s', h, hmade⟩ | ⟨e, s', h, hstopped⟩ := makeFolders_cases (Path.read path) s
    · rw [Store.after, h]
      exact hmade.tree hs
    · rw [Store.after, h]
      exact hstopped.tree hs

/-- **The store that a run starts from is a tree**, wherever the working folder lies. -/
theorem isTree_empty (workingFolder : List String) : (empty workingFolder).IsTree := by
  have hnone : (Store.mk [] []).IsTree := by
    intro place e h
    rw [find] at h
    split at h
    · next hroot =>
      rw [hroot]
      exact find_root _
    · cases h
  exact hnone.seedFolders _

end Store

end DesignMarkup
