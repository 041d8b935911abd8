import DesignMarkup.Proofs.Files.Writing

/-!
# `Proofs.Files.Persistence` — failures that last

As long as nothing is taken away, folders stay folders and files stay files. Then a path that leads to a file
in the end has never been blocked on its way: at worst something was missing. So if writing a file fails for
another reason than that, it fails again whenever it is tried.

## Contents

* `Store.Persists`: **stores of which nothing is taken away**;
* `resolve_of_persists`, `resolve_above`: ways that lead somewhere in the end;
* `tryMake_of_persists`, `makeFoldersAt_missing`: folders that are there in the end;
* `writeFile_missing`: **files that are there in the end**.
-/

namespace DesignMarkup

namespace Store

/-- **Whatever stands stays of its kind**: folders stay folders, and files stay files, though perhaps with other
contents. -/
structure Persists (s t : Store) : Prop where
  keeps : s.Keeps t
  files : ∀ q b, s.find q = some (.file b) → ∃ b', t.find q = some (.file b')

theorem persists_refl (s : Store) : s.Persists s :=
  ⟨s.grows_refl.keeps, fun _ b hq => ⟨b, hq⟩⟩

theorem Persists.trans {s t u : Store} (h : s.Persists t) (h' : t.Persists u) : s.Persists u := by
  refine ⟨h.keeps.trans h'.keeps, fun q b hq => ?_⟩
  obtain ⟨b', hb'⟩ := h.files q b hq
  exact h'.files q b' hb'

theorem Grows.persists {s t : Store} (h : s.Grows t) : s.Persists t :=
  ⟨h.keeps, fun q b hq => ⟨b, h.entries q _ hq⟩⟩

/-- Where a file is written, a file stood at most. -/
theorem Wrote.persists {s t : Store} {p : Path} {content : ByteArray} (h : s.Wrote p content t) :
    s.Persists t := by
  refine ⟨h.keeps, fun q b hq => ?_⟩
  obtain ⟨place, -, hfind, hothers⟩ := h.written
  by_cases heq : q = place
  · rw [heq]
    exact ⟨content, hfind⟩
  · exact ⟨b, (hothers q b heq).mpr hq⟩

/-- Nothing is taken away by putting files, whether or not a path was refused. -/
theorem seed_persists (s : Store) (files : List (String × ByteArray)) : s.Persists (s.seed files) := by
  induction files generalizing s with
  | nil => exact s.persists_refl
  | cons file rest ih =>
    have hfirst : s.Persists
        (s.after do makeFolders (Path.read file.1).parent; putFile (Path.read file.1) file.2) := by
      obtain ⟨s', h, hwrote⟩ | ⟨e, s', h, hstopped⟩ := makePut_cases (Path.read file.1) file.2 s
      · rw [Store.after, h]
        exact hwrote.persists
      · rw [Store.after, h]
        exact hstopped.grows.persists
    exact hfirst.trans (ih _)

/-! ## Ways that lead somewhere in the end -/

section Ways

variable {s t : Store} {p : Path} {place q : List String}

/-- A way that leads somewhere in the end has led there before, or something was missing on it. -/
theorem walk_of_persists (h : s.Persists t) {xs : List String} (hway : t.walk place xs = .ok q) :
    s.walk place xs = .ok q ∨ s.walk place xs = .error .notFound := by
  induction xs generalizing place with
  | nil => exact .inl hway
  | cons c rest ih =>
    rw [walk] at hway ⊢
    split at hway
    · cases hway
    · cases hway
    · next hfolder =>
      rcases hfind : s.find place with _ | ⟨b⟩ | _
      · exact .inr rfl
      · obtain ⟨b', hb'⟩ := h.files place b hfind
        cases hfolder.symm.trans hb'
      · split at hway
        · next hup =>
          simp only [if_pos hup]
          exact ih hway
        · next hup =>
          split at hway
          · cases hway
          · next hlen =>
            simp only [if_neg hup, if_neg hlen]
            exact ih hway

theorem resolve_of_persists (h : s.Persists t) (hp : t.resolve p = .ok q) :
    s.resolve p = .ok q ∨ ∃ e, s.resolve p = .error e ∧ e.Missing := by
  obtain ⟨e, he, -⟩ | hwalk := resolve_cases p
  · cases (he t).symm.trans hp
  · have hway := walk_of_resolve hp
    rw [start_of_keeps h.keeps] at hway
    rw [hwalk]
    obtain hway | hway := walk_of_persists h hway
    · rw [hway]
      exact .inl rfl
    · rw [hway]
      exact .inr ⟨_, rfl, _, rfl⟩

/-- A path without its last component is not too long either. -/
theorem maxPath_above {root c : String} {xs : List String}
    (h : ¬maxPath < (Path.text ⟨root, xs ++ [c]⟩).utf8ByteSize) :
    ¬maxPath < (Path.text ⟨root, xs⟩).utf8ByteSize := by
  have hlong : Path.text ⟨root, xs ++ [c]⟩ = root ++ "/".intercalate (xs ++ [c]) :=
    if_neg fun he => absurd he.2 (by simp)
  rw [hlong, String.utf8ByteSize_append] at h
  by_cases hnone : root = "" ∧ xs = []
  · rw [Path.text, if_pos hnone]
    decide
  · have hshort : Path.text ⟨root, xs⟩ = root ++ "/".intercalate xs := if_neg hnone
    rw [hshort, String.utf8ByteSize_append]
    by_cases hxs : xs = []
    · rw [hxs, String.intercalate_nil]
      rw [hxs, List.nil_append, String.intercalate_singleton] at h
      have hempty : "".utf8ByteSize = 0 := rfl
      omega
    · rw [String.intercalate_append_of_ne_nil hxs (List.cons_ne_nil _ _), String.utf8ByteSize_append,
        String.utf8ByteSize_append] at h
      omega

/-- The way of a path passes the folder above. -/
theorem resolve_above {root c : String} {xs : List String} (hp : t.resolve ⟨root, xs ++ [c]⟩ = .ok q) :
    ∃ d, t.resolve ⟨root, xs⟩ = .ok d ∧ t.find d = some .folder := by
  obtain ⟨d, hway, hfolder, -⟩ := walk_concat_eq_ok (walk_of_resolve hp)
  refine ⟨d, ?_, hfolder⟩
  rw [resolve] at hp ⊢
  split at hp
  · cases hp
  · next hnull =>
    split at hp
    · cases hp
    · next hlong =>
      have hnull' : ¬(xs.any fun c => c.toList.contains '\x00') = true := fun he => hnull (by
        rw [List.any_append, he]
        rfl)
      rw [if_neg hnull', if_neg (maxPath_above hlong)]
      exact congrArg (Except.mapError _) hway

end Ways

end Store

/-! ## Folders that are there in the end -/

section Folders

variable {s s' t : Store} {p : Path} {q : List String} {e : FileError}

/-- A failure is passed over where a folder stands. -/
theorem unlessFolder_of_folder (hp : s.resolve p = .ok q) (hfolder : s.find q = some .folder)
    (f : FileFault) (path : String) : (unlessFolder p (.fault f path)).run s = (.ok (), s) := by
  have hhas : s.hasFolder p = .ok true := by
    rw [Store.hasFolder, hp]
    exact congrArg _ (beq_iff_eq.mpr hfolder)
  simp only [unlessFolder, run_get_bind, hhas]
  rfl

/-- If something was missing, it is that which is told of, unless a folder stands there. -/
theorem unlessFolder_missing (hp : (∃ q, s.resolve p = .ok q) ∨ ∃ e, s.resolve p = .error e ∧ e.Missing)
    {e' : FileError} (he : e'.Missing) (hrun : (unlessFolder p e').run s = (.error e, s')) :
    e.Missing := by
  obtain ⟨path, rfl⟩ := he
  have hhas : ∃ b, s.hasFolder p = .ok b := by
    rw [Store.hasFolder]
    obtain ⟨q, hp⟩ | ⟨_, hp, path, rfl⟩ := hp
    · rw [hp]
      exact ⟨_, rfl⟩
    · rw [hp]
      exact ⟨_, rfl⟩
  obtain ⟨b, hb⟩ := hhas
  simp only [unlessFolder, run_get_bind, hb] at hrun
  cases b with
  | true => cases hrun
  | false =>
    obtain rfl := Except.error.inj (Prod.mk.inj hrun).1
    exact ⟨path, rfl⟩

/-- **A folder that is there in the end** can be made, or something is missing for it. -/
theorem tryMake_of_persists (h : s.Persists t) (ht : t.IsTree) (hp : t.resolve p = .ok q)
    (hfolder : t.find q = some .folder) (retry : FileError → Filing Unit) :
    (∃ s', (tryCatch (makeFolder p) (onMissing p retry)).run s = (.ok (), s')) ∨
      ∃ e, (tryCatch (makeFolder p) (onMissing p retry)).run s = (retry e).run s ∧ e.Missing := by
  obtain hs | ⟨e, hs, hmissing⟩ := Store.resolve_of_persists h hp
  · rcases hfind : s.find q with _ | ⟨b⟩ | _
    · rcases habove : s.find q.dropLast with _ | ⟨b⟩ | _
      · have hmake : (makeFolder p).run s = (.error (.fault .notFound p.text), s) := by
          rw [makeFolder, run_resolveNow_ok hs, hfind]
          simp only [run_get_bind, habove]
          rfl
        rw [run_tryCatch_error hmake, onMissing_of_missing ⟨_, rfl⟩]
        exact .inr ⟨_, rfl, _, rfl⟩
      · -- a file above it would still be one in the end
        obtain ⟨b', hb'⟩ := h.files _ b habove
        cases (ht q _ hfolder).symm.trans hb'
      · have hmake : (makeFolder p).run s = (.ok (), s.put q .folder) := by
          rw [makeFolder, run_resolveNow_ok hs, hfind]
          simp only [run_get_bind, habove]
          rfl
        exact .inl ⟨_, run_tryCatch_ok hmake⟩
    · obtain ⟨b', hb'⟩ := h.files q b hfind
      cases hfolder.symm.trans hb'
    · have hmake : (makeFolder p).run s = (.error (.fault .occupied p.text), s) := by
        rw [makeFolder, run_resolveNow_ok hs, hfind]
        rfl
      rw [run_tryCatch_error hmake, onMissing_of_not_missing (by simp)]
      exact .inl ⟨s, unlessFolder_of_folder hs hfind _ _⟩
  · have hmake : (makeFolder p).run s = (.error e, s) := by
      rw [makeFolder]
      exact run_resolveNow_error hs _
    rw [run_tryCatch_error hmake, onMissing_of_missing hmissing]
    exact .inr ⟨e, rfl, hmissing⟩

/-- If folders that are there in the end cannot be made, something was missing. -/
theorem makeFoldersAt_missing {root : String} {reversed : List String}
    (hrun : (makeFoldersAt root reversed).run s = (.error e, s')) (h : s'.Persists t) (ht : t.IsTree)
    (hp : t.resolve ⟨root, reversed.reverse⟩ = .ok q) (hfolder : t.find q = some .folder) : e.Missing := by
  -- on the components from the last one upwards, as folders are made
  induction reversed generalizing s s' e q with
  | nil =>
    rw [makeFoldersAt_nil] at hrun
    have hs : s.Persists t := by
      obtain ⟨_, h₁, -⟩ | ⟨_, h₁, -⟩ | ⟨e₁, h₁, -, -⟩ :=
        tryMake_cases ⟨root, []⟩ s (unlessFolder ⟨root, []⟩)
      · cases h₁.symm.trans hrun
      · obtain ⟨-, rfl⟩ := Prod.mk.inj (h₁.symm.trans hrun)
        exact h
      · obtain ⟨h₂, -⟩ | ⟨_, h₂, -⟩ := unlessFolder_cases ⟨root, []⟩ s e₁
        · cases (h₁.trans h₂).symm.trans hrun
        · obtain ⟨-, rfl⟩ := Prod.mk.inj ((h₁.trans h₂).symm.trans hrun)
          exact h
    obtain ⟨s₁, h₁⟩ | ⟨e₁, h₁, hmissing⟩ :=
      tryMake_of_persists hs ht hp hfolder (unlessFolder ⟨root, []⟩)
    · cases h₁.symm.trans hrun
    · exact unlessFolder_missing ((Store.resolve_of_persists hs hp).imp_left fun hq => ⟨q, hq⟩) hmissing
        (h₁.symm.trans hrun)
  | cons c above ih =>
    have hs : s.Persists t := by
      obtain ⟨s₁, h₁, -⟩ | ⟨e₁, s₁, h₁, hstopped⟩ := makeFoldersAt_cases root (c :: above) s
      · cases h₁.symm.trans hrun
      · obtain ⟨-, rfl⟩ := Prod.mk.inj (h₁.symm.trans hrun)
        exact hstopped.grows.persists.trans h
    rw [makeFoldersAt_cons root c above rfl] at hrun
    obtain ⟨s₁, h₁⟩ | ⟨e₁, h₁, -⟩ := tryMake_of_persists hs ht hp hfolder fun _ => do
      makeFoldersAt root above
      tryCatch (makeFolder ⟨root, (c :: above).reverse⟩) (onMissing ⟨root, (c :: above).reverse⟩ throw)
    · cases h₁.symm.trans hrun
    · obtain hfirst | ⟨_, s₁, -, hsecond⟩ := error_of_run_bind (h₁.symm.trans hrun)
      · rw [List.reverse_cons] at hp
        obtain ⟨d, hd, hfolder'⟩ := Store.resolve_above hp
        exact ih hfirst h hd hfolder'
      · -- the second try changes nothing if it fails
        have hs₁ : s₁.Persists t := by
          obtain ⟨_, h₂, -⟩ | ⟨_, h₂, -⟩ | ⟨_, h₂, -, -⟩ :=
            tryMake_cases ⟨root, (c :: above).reverse⟩ s₁ throw
          · cases h₂.symm.trans hsecond
          · obtain ⟨-, rfl⟩ := Prod.mk.inj (h₂.symm.trans hsecond)
            exact h
          · obtain ⟨-, rfl⟩ := Prod.mk.inj (h₂.symm.trans hsecond)
            exact h
        obtain ⟨_, h₂⟩ | ⟨e₂, h₂, hmissing⟩ := tryMake_of_persists hs₁ ht hp hfolder throw
        · cases h₂.symm.trans hsecond
        · obtain ⟨he, -⟩ := Prod.mk.inj (h₂.symm.trans hsecond)
          obtain rfl := Except.error.inj he
          exact hmissing

end Folders

/-! ## Files that are there in the end -/

/-- If a file that is there in the end cannot be put, something was missing. -/
theorem putFile_missing {p : Path} {content b : ByteArray} {s s' t : Store} {e : FileError}
    {place : List String} (hrun : (putFile p content).run s = (.error e, s')) (h : s.Persists t)
    (ht : t.IsTree) (hp : t.resolve p = .ok place) (hfile : t.find place = some (.file b)) : e.Missing := by
  rw [putFile] at hrun
  obtain hs | ⟨e', hs, hmissing⟩ := Store.resolve_of_persists h hp
  · rw [run_resolveNow_ok hs] at hrun
    rcases hfind : s.find place with _ | ⟨old⟩ | _
    · rw [hfind] at hrun
      simp only [run_get_bind] at hrun
      rcases habove : s.find place.dropLast with _ | ⟨other⟩ | _
      · rw [habove] at hrun
        obtain rfl := Except.error.inj (Prod.mk.inj hrun).1
        exact ⟨_, rfl⟩
      · obtain ⟨b', hb'⟩ := h.files _ other habove
        cases (ht place _ hfile).symm.trans hb'
      · rw [habove] at hrun
        cases hrun
    · rw [hfind] at hrun
      cases hrun
    · cases (h.keeps.folders place hfind).symm.trans hfile
  · rw [run_resolveNow_error hs] at hrun
    obtain rfl := Except.error.inj (Prod.mk.inj hrun).1
    exact hmissing

/-- **If a file that is there in the end cannot be written, something was missing.** -/
theorem writeFile_missing {root c content : String} {xs : List String} {s s' t : Store} {e : FileError}
    {place : List String} {b : ByteArray}
    (hrun : (writeFile ⟨root, xs ++ [c]⟩ content).run s = (.error e, s')) (h : s'.Persists t)
    (ht : t.IsTree) (hp : t.resolve ⟨root, xs ++ [c]⟩ = .ok place)
    (hfile : t.find place = some (.file b)) : e.Missing := by
  rw [writeFile] at hrun
  obtain hfolders | ⟨_, s₁, -, hput⟩ := error_of_run_bind hrun
  · obtain ⟨d, hd, hfolder⟩ := Store.resolve_above hp
    have hparent : Path.parent ⟨root, xs ++ [c]⟩ = ⟨root, xs⟩ := by
      rw [Path.parent, List.dropLast_concat]
    rw [hparent, makeFolders] at hfolders
    refine makeFoldersAt_missing hfolders h ht ?_ hfolder
    rw [List.reverse_reverse]
    exact hd
  · -- putting changes nothing if it fails
    obtain ⟨_, -, -, -, h₂⟩ | ⟨_, h₂, -⟩ :=
      putFile_cases ⟨root, xs ++ [c]⟩ (Text.encodeUtf8 content) s₁
    · cases h₂.symm.trans hput
    · obtain ⟨-, rfl⟩ := Prod.mk.inj (h₂.symm.trans hput)
      exact putFile_missing hput h ht hp hfile

end DesignMarkup
