import DesignMarkup.Page.Output
import DesignMarkup.Proofs.Files.Persistence
import DesignMarkup.Proofs.Files.Place
import Mathlib.Data.List.Nodup

/-!
# `Proofs.Page.Output` — the files of a conversion, once they are written

Files are written one after the other. If that fails because something is missing, it fails at the first
file, since the files of a conversion lie in one folder, and nothing has changed. If it succeeds, each file
can be read again, as long as no other is written over it.

## Contents

* `writeAll_missing`: **a failure because something is missing**;
* `lastAt`, `WroteAll`, `writeAll_ok`, `writeAll_error`: **what stands where in the end**;
* `WroteAll.read_last`, `read_untouched`: **reading what was written**, and what was not;
* `writeAll_fails_again`: **a failure that lasts**;
* `outputFiles_paths`, `page_mem_outputFiles`, `places_outputFiles`: the files of a conversion and their places;
* `writeConversion_missing`, `writeConversion_read`: a conversion that is written.
-/

namespace DesignMarkup

namespace Page

/-! ## Failures because something is missing -/

/-- In a folder that is there, nothing is missing for any file. -/
theorem writeAll_of_leads {folder : Path} {files : List OutputFile} {s s' : Store} {e : FileError}
    (hfiles : ∀ f ∈ files, f.path.parent = folder) (hs : s.IsTree) (h : s.Leads folder)
    (hrun : (writeAll files).run s = (.error e, s')) : ¬e.Missing := by
  induction files generalizing s with
  | nil => cases hrun
  | cons f rest ih =>
    rw [writeAll] at hrun
    have hparent : f.path.parent = folder := hfiles f List.mem_cons_self
    obtain ⟨s₁, h₁, hwrote⟩ | ⟨e₁, s₁, h₁, hne⟩ := writeFile_of_leads hs (hparent ▸ h) f.content
    · rw [run_bind_ok h₁] at hrun
      obtain hrest | ⟨paths, s₂, -, hpure⟩ := error_of_run_bind hrun
      · exact ih (fun g hg => hfiles g (List.mem_cons_of_mem _ hg)) (hwrote.tree hs)
          (hparent ▸ hwrote.leads) hrest
      · cases hpure
    · rw [run_bind_error h₁] at hrun
      obtain rfl := Except.error.inj (Prod.mk.inj hrun).1
      exact hne

/-- **Writing files of one folder** changes nothing if it fails because something is missing. -/
theorem writeAll_missing {folder : Path} {files : List OutputFile}
    (hfiles : ∀ f ∈ files, f.path.parent = folder) {s s' : Store} {e : FileError}
    (hs : s.IsTree) (hrun : (writeAll files).run s = (.error e, s')) (hmissing : e.Missing) :
    s' = s := by
  cases files with
  | nil => cases hrun
  | cons f rest =>
    rw [writeAll] at hrun
    have hparent : f.path.parent = folder := hfiles f List.mem_cons_self
    obtain ⟨s₁, h₁, hwrote⟩ | ⟨e₁, s₁, h₁, hstopped⟩ := writeFile_cases f.path f.content s
    · -- after the first file its folder is there
      rw [run_bind_ok h₁] at hrun
      obtain hrest | ⟨paths, s₂, -, hpure⟩ := error_of_run_bind hrun
      · exact absurd hmissing (writeAll_of_leads (fun g hg => hfiles g (List.mem_cons_of_mem _ hg))
          (hwrote.tree hs) (hparent ▸ hwrote.leads) hrest)
      · cases hpure
    · rw [run_bind_error h₁] at hrun
      obtain ⟨he, rfl⟩ := Prod.mk.inj hrun
      obtain rfl := Except.error.inj he
      exact hstopped.same hs hmissing

end Page

/-! ## What stands where in the end -/

/-- The content of the file at a path. -/
theorem Store.read_eq_ok_iff {s : Store} {p : Path} {content : ByteArray} :
    s.read p = .ok content ↔
      ∃ place, s.resolve p = .ok place ∧ s.find place = some (.file content) := by
  rw [Store.read]
  constructor
  · intro h
    obtain ⟨place, hp, h⟩ := bind_eq_ok.mp h
    refine ⟨place, hp, ?_⟩
    split at h
    · next hfind =>
      obtain rfl := pure_eq_ok.mp h
      exact hfind
    · cases h
    · cases h
  · rintro ⟨place, hp, hfind⟩
    refine bind_eq_ok.mpr ⟨place, hp, ?_⟩
    rw [hfind]
    rfl

namespace Page

/-- A success of writing files comes apart. -/
theorem writeAll_cons_ok {f : OutputFile} {rest : List OutputFile} {s s' : Store} {paths : List String}
    (h : (writeAll (f :: rest)).run s = (.ok paths, s')) :
    ∃ s₁ others, s.Wrote f.path (Text.encodeUtf8 f.content) s₁ ∧
      (writeAll rest).run s₁ = (.ok others, s') := by
  rw [writeAll] at h
  obtain ⟨_, s₁, h₁, h⟩ := ok_of_run_bind h
  obtain ⟨others, s₂, h₂, hpure⟩ := ok_of_run_bind h
  obtain ⟨-, rfl⟩ := Prod.mk.inj (hpure : (Except.ok (f.path.text :: others), s₂) = (.ok paths, s'))
  obtain ⟨s₁', h₁', hwrote⟩ | ⟨e, s₁', h₁', -⟩ := writeFile_cases f.path f.content s
  · obtain ⟨-, rfl⟩ := Prod.mk.inj (h₁'.symm.trans h₁)
    exact ⟨s₁', others, hwrote, h₂⟩
  · cases h₁'.symm.trans h₁

/-- What stands at a place after files were written: what the last of them brought there, if any did. -/
def lastAt (s : Store) (place : List String) (found : Option ByteArray) (files : List OutputFile) :
    Option ByteArray :=
  files.foldl (fun found f => if s.placeOf f.path = place then some (Text.encodeUtf8 f.content) else found)
    found

section LastAt

variable {s : Store} {place : List String} {found : Option ByteArray} {files : List OutputFile}

theorem lastAt_of_forall_ne (h : ∀ f ∈ files, s.placeOf f.path ≠ place) :
    lastAt s place found files = found := by
  induction files generalizing found with
  | nil => rfl
  | cons f rest ih =>
    obtain ⟨hf, hrest⟩ := List.forall_mem_cons.mp h
    rw [lastAt, List.foldl_cons, if_neg hf]
    exact ih hrest

/-- What comes later counts after what comes before. -/
theorem lastAt_append (s : Store) (place : List String) (found : Option ByteArray)
    (xs ys : List OutputFile) :
    lastAt s place found (xs ++ ys) = lastAt s place (lastAt s place found xs) ys :=
  List.foldl_append

/-- What stands at a place stood there, or it was brought by one of the files. -/
theorem lastAt_cases (s : Store) (place : List String) (found : Option ByteArray)
    (files : List OutputFile) :
    lastAt s place found files = found ∨
      ∃ f ∈ files, s.placeOf f.path = place ∧
        lastAt s place found files = some (Text.encodeUtf8 f.content) := by
  induction files generalizing found with
  | nil => exact .inl rfl
  | cons f rest ih =>
    rw [lastAt, List.foldl_cons]
    obtain hsame | ⟨g, hg, hplace, hlast⟩ :=
      ih (if s.placeOf f.path = place then some (Text.encodeUtf8 f.content) else found)
    · by_cases hf : s.placeOf f.path = place
      · rw [if_pos hf] at hsame ⊢
        exact .inr ⟨f, List.mem_cons_self, hf, hsame⟩
      · rw [if_neg hf] at hsame ⊢
        exact .inl hsame
    · exact .inr ⟨g, List.mem_cons_of_mem f hg, hplace, hlast⟩

/-- Where a file was brought, a file stands. -/
theorem lastAt_of_mem {f : OutputFile} (hf : f ∈ files) :
    ∃ b, lastAt s (s.placeOf f.path) found files = some b := by
  induction files generalizing found with
  | nil => exact absurd hf List.not_mem_nil
  | cons g rest ih =>
    rw [lastAt, List.foldl_cons]
    rcases List.mem_cons.mp hf with rfl | hf
    · rw [if_pos rfl]
      obtain hlast | ⟨x, -, -, hlast⟩ := lastAt_cases s (s.placeOf f.path)
        (some (Text.encodeUtf8 f.content)) rest
      · exact ⟨_, hlast⟩
      · exact ⟨_, hlast⟩
    · exact ih hf

/-- Of files at different places each stands where it was brought. -/
theorem lastAt_of_nodup (h : (files.map fun f => s.placeOf f.path).Nodup) {f : OutputFile}
    (hf : f ∈ files) : lastAt s (s.placeOf f.path) found files = some (Text.encodeUtf8 f.content) := by
  induction files generalizing found with
  | nil => exact absurd hf List.not_mem_nil
  | cons g rest ih =>
    rw [List.map_cons, List.nodup_cons] at h
    rw [lastAt, List.foldl_cons]
    rcases List.mem_cons.mp hf with rfl | hf
    · rw [if_pos rfl]
      refine lastAt_of_forall_ne fun x hx hplace => h.1 ?_
      rw [← hplace]
      exact List.mem_map_of_mem hx
    · exact ih h.2 hf

end LastAt

/-- **Files were written one after the other**: each path leads to its place, and at every place stands the
file that was brought there last. -/
structure WroteAll (s : Store) (files : List OutputFile) (s' : Store) : Prop where
  keeps : s.Keeps s'
  tree : s.IsTree → s'.IsTree
  resolves : ∀ f ∈ files, s'.resolve f.path = .ok (s.placeOf f.path)
  fileAt : ∀ place, s'.fileAt place = lastAt s place (s.fileAt place) files

/-- One file is written. -/
theorem fileAt_of_wrote {s s' : Store} {p : Path} {content : ByteArray} (h : s.Wrote p content s')
    (place : List String) :
    s'.fileAt place = if s.placeOf p = place then some content else s.fileAt place := by
  obtain ⟨q, hq, hfind, hothers⟩ := h.written
  have hplace : s.placeOf p = q := by
    rw [← Store.placeOf_of_keeps h.keeps]
    exact (Store.resolve_eq_placeOf hq).symm
  rw [hplace]
  split
  · next heq =>
    rw [← heq]
    exact Store.fileAt_eq_some_iff.mpr hfind
  · next hne =>
    refine Option.ext fun b => ?_
    rw [Store.fileAt_eq_some_iff, Store.fileAt_eq_some_iff]
    exact hothers place b (Ne.symm hne)

theorem wroteAll_nil (s : Store) : WroteAll s [] s :=
  ⟨s.grows_refl.keeps, id, fun _ hf => absurd hf List.not_mem_nil, fun _ => rfl⟩

/-- One file is written, and then others. -/
theorem WroteAll.cons {f : OutputFile} {rest : List OutputFile} {s s₁ s' : Store}
    (hwrote : s.Wrote f.path (Text.encodeUtf8 f.content) s₁) (hall : WroteAll s₁ rest s') :
    WroteAll s (f :: rest) s' := by
  have hplaces : s₁.placeOf = s.placeOf := funext (Store.placeOf_of_keeps hwrote.keeps)
  refine ⟨hwrote.keeps.trans hall.keeps, hall.tree ∘ hwrote.tree, ?_, fun place => ?_⟩
  · intro g hg
    rcases List.mem_cons.mp hg with rfl | hg
    · obtain ⟨q, hq, -⟩ := hwrote.written
      rw [← hplaces, ← Store.resolve_eq_placeOf hq]
      exact Store.resolve_of_keeps hall.keeps hq
    · rw [← hplaces]
      exact hall.resolves g hg
  · rw [hall.fileAt, lastAt, hplaces, fileAt_of_wrote hwrote]
    rfl

/-- **What writing files comes to**, if it succeeds. -/
theorem writeAll_ok {files : List OutputFile} {s s' : Store} {paths : List String}
    (h : (writeAll files).run s = (.ok paths, s')) : WroteAll s files s' := by
  induction files generalizing s paths with
  | nil =>
    obtain ⟨-, rfl⟩ := Prod.mk.inj (h : (Except.ok [], s) = (Except.ok paths, s'))
    exact wroteAll_nil s
  | cons f rest ih =>
    obtain ⟨s₁, others, hwrote, hrest⟩ := writeAll_cons_ok h
    exact .cons hwrote (ih hrest)

/-- **What writing files comes to**, if it fails: the files before the one that fails were written. -/
theorem writeAll_error {files : List OutputFile} {s s' : Store} {e : FileError}
    (h : (writeAll files).run s = (.error e, s')) :
    ∃ before f rest s₁, files = before ++ f :: rest ∧ WroteAll s before s' ∧
      (writeFile f.path f.content).run s₁ = (.error e, s') := by
  induction files generalizing s with
  | nil => cases h
  | cons f rest ih =>
    rw [writeAll] at h
    obtain ⟨s₁, h₁, hwrote⟩ | ⟨e₁, s₁, h₁, hstopped⟩ := writeFile_cases f.path f.content s
    · rw [run_bind_ok h₁] at h
      obtain hrest | ⟨paths, s₂, -, hpure⟩ := error_of_run_bind h
      · obtain ⟨before, g, after, s₂, rfl, hall, hlast⟩ := ih hrest
        exact ⟨f :: before, g, after, s₂, rfl, .cons hwrote hall, hlast⟩
      · cases hpure
    · obtain ⟨he, rfl⟩ := Prod.mk.inj ((run_bind_error h₁).symm.trans h)
      obtain rfl := Except.error.inj he
      refine ⟨[], f, rest, s, rfl, ⟨hstopped.grows.keeps, hstopped.tree, ?_, fun place => ?_⟩, h₁⟩
      · exact fun _ hg => absurd hg List.not_mem_nil
      · refine Option.ext fun b => ?_
        rw [Store.fileAt_eq_some_iff]
        exact ⟨fun hq => Store.fileAt_eq_some_iff.mpr (hstopped.files _ b hq),
          fun hq => hstopped.grows.entries _ _ (Store.fileAt_eq_some_iff.mp hq)⟩

/-- **Whether or not writing files succeeds**, the first of them are written. -/
theorem writeAll_wrote (files : List OutputFile) (s : Store) :
    ∃ done, done <+: files ∧ WroteAll s done ((writeAll files).run s).2 := by
  rcases hrun : (writeAll files).run s with ⟨e | paths, s'⟩
  · obtain ⟨before, f, rest, -, rfl, hall, -⟩ := writeAll_error hrun
    exact ⟨before, List.prefix_append _ _, hall⟩
  · exact ⟨files, List.prefix_rfl, writeAll_ok hrun⟩

/-- Nothing is taken away by writing. -/
theorem WroteAll.persists {s s' : Store} {files : List OutputFile} (h : WroteAll s files s') :
    s.Persists s' := by
  refine ⟨h.keeps, fun q b hq => ?_⟩
  rw [← Store.fileAt_eq_some_iff] at hq
  obtain hsame | ⟨f, -, -, hlast⟩ := lastAt_cases s q (s.fileAt q) files
  · exact ⟨b, Store.fileAt_eq_some_iff.mp ((h.fileAt q).trans (hsame.trans hq))⟩
  · exact ⟨_, Store.fileAt_eq_some_iff.mp ((h.fileAt q).trans hlast)⟩

/-- **Files at different places that come last can all be read** once they are written. -/
theorem WroteAll.read_last {s s' : Store} {before files : List OutputFile}
    (h : WroteAll s (before ++ files) s') (hplaces : (files.map fun f => s.placeOf f.path).Nodup) :
    ∀ f ∈ files, s'.read f.path = .ok (Text.encodeUtf8 f.content) := by
  intro f hf
  refine Store.read_eq_ok_iff.mpr ⟨s.placeOf f.path, h.resolves f (List.mem_append_right before hf), ?_⟩
  rw [← Store.fileAt_eq_some_iff, h.fileAt, lastAt_append]
  exact lastAt_of_nodup hplaces hf

/-- **Files at different places can all be read** once they are written. -/
theorem WroteAll.read {s s' : Store} {files : List OutputFile} (h : WroteAll s files s')
    (hplaces : (files.map fun f => s.placeOf f.path).Nodup) :
    ∀ f ∈ files, s'.read f.path = .ok (Text.encodeUtf8 f.content) := by
  have hlast : WroteAll s ([] ++ files) s' := h
  exact hlast.read_last hplaces

/-- **A file that none of the files was written over** is read alike after one and after the other. -/
theorem WroteAll.read_untouched {s s₁ s₂ : Store} {files files' : List OutputFile} {p : Path}
    (h : WroteAll s files s₁) (h' : WroteAll s files' s₂) (hresolve : s₁.resolve p = s₂.resolve p)
    (hfiles : ∀ f ∈ files, s.placeOf f.path ≠ s.placeOf p)
    (hfiles' : ∀ f ∈ files', s.placeOf f.path ≠ s.placeOf p) :
    (s₁.read p).toOption = (s₂.read p).toOption := by
  rw [Store.toOption_read, Store.toOption_read, hresolve]
  rcases hp : s₂.resolve p with e | place
  · rfl
  · have hplace := Store.resolve_eq_placeOf hp
    rw [Store.placeOf_of_keeps h'.keeps] at hplace
    show s₁.fileAt place = s₂.fileAt place
    rw [hplace, h.fileAt, h'.fileAt, lastAt_of_forall_ne hfiles, lastAt_of_forall_ne hfiles']

/-- **Writing files of one folder that has failed fails again** from where it stopped. -/
theorem writeAll_fails_again {folder : Path} {files : List OutputFile}
    (hfiles : ∀ f ∈ files, ∃ c, f.path = ⟨folder.root, folder.parts ++ [c]⟩) {s s' : Store}
    {e : FileError} (hs : s.IsTree) (h : (writeAll files).run s = (.error e, s')) :
    ¬SucceedsFrom (writeAll files) s' := by
  rintro ⟨paths, t, hagain⟩
  have hparents : ∀ f ∈ files, f.path.parent = folder := by
    intro f hf
    obtain ⟨c, hc⟩ := hfiles f hf
    rw [hc, Path.parent, List.dropLast_concat]
  obtain ⟨before, f, rest, s₁, rfl, hwrote, hlast⟩ := writeAll_error h
  have hf : f ∈ before ++ f :: rest := List.mem_append_right _ List.mem_cons_self
  have hall := writeAll_ok hagain
  obtain ⟨c, hc⟩ := hfiles f hf
  -- in the end the file is there, so it can only have failed because something was missing
  obtain ⟨b, hb⟩ : ∃ b, t.fileAt (s'.placeOf f.path) = some b := by
    rw [hall.fileAt]
    exact lastAt_of_mem hf
  have hresolve := hall.resolves f hf
  rw [hc] at hlast hb hresolve
  have hmissing := writeFile_missing hlast hall.persists (hall.tree (hwrote.tree hs)) hresolve
    (Store.fileAt_eq_some_iff.mp hb)
  -- and then nothing has changed, so it would have succeeded
  obtain rfl := writeAll_missing hparents hs h hmissing
  cases h.symm.trans hagain

/-! ## The files of a conversion -/

/-- The files of a conversion by their names in the output folder. -/
theorem outputFiles_paths (folder : String) (r : Result) (styles : StyleTable) (o : Options)
    (fileName : String) :
    ((outputFiles folder r styles o fileName).map OutputFile.path).Sublist
      ([fileName, "styles.css", "components.json"].map (Path.read folder).append) := by
  rw [outputFiles]
  split
  · simp
  · split
    · simp
    · simp

/-- The page comes first. -/
theorem page_mem_outputFiles (folder : String) (r : Result) (styles : StyleTable) (o : Options)
    (fileName : String) :
    (⟨(Path.read folder).append fileName, pageText r o⟩ : OutputFile) ∈
      outputFiles folder r styles o fileName := by
  rw [outputFiles]
  split
  · exact List.mem_cons_self
  · split
    · exact List.mem_cons_self
    · exact List.mem_cons_self

/-- The stylesheet is among the files of a page that is no child. -/
theorem stylesheet_mem_outputFiles (folder : String) (r : Result) (styles : StyleTable) {o : Options}
    (h : o.isChild = false) (fileName : String) :
    (⟨(Path.read folder).append "styles.css", stylesheet styles o.bootstrapVersion⟩ :
      OutputFile) ∈ outputFiles folder r styles o fileName := by
  rw [outputFiles, h]
  split
  · next hchild => cases hchild
  · split
    · exact List.mem_cons_of_mem _ List.mem_cons_self
    · exact List.mem_cons_of_mem _ List.mem_cons_self

/-- The report is among the files of a page that is no child, if the design uses components, -/
theorem report_mem_outputFiles (folder : String) {r : Result} (styles : StyleTable) {o : Options}
    (h : o.isChild = false) (hr : r.components.isEmpty = false) (fileName : String) :
    (⟨(Path.read folder).append "components.json", componentsText r.components⟩ : OutputFile) ∈
      outputFiles folder r styles o fileName := by
  simp [outputFiles, h, hr]

/-- and otherwise there are only the page and the stylesheet. -/
theorem outputFiles_of_no_components {folder : String} {r : Result} {styles : StyleTable} {o : Options}
    {fileName : String} (hr : r.components.isEmpty = true) {f : OutputFile}
    (hf : f ∈ outputFiles folder r styles o fileName) :
    ∃ name ∈ [fileName, "styles.css"], f.path = (Path.read folder).append name := by
  rw [outputFiles, if_pos hr] at hf
  split at hf
  · exact ⟨fileName, List.mem_cons_self, congrArg OutputFile.path (List.mem_singleton.mp hf)⟩
  · rcases List.mem_pair.mp hf with rfl | rfl
    · exact ⟨fileName, List.mem_cons_self, rfl⟩
    · exact ⟨"styles.css", List.mem_cons_of_mem _ List.mem_cons_self, rfl⟩

/-- The files of an index have plain names. -/
theorem index_names_plain : ∀ name ∈ ["index.html", "styles.css", "components.json"],
    Path.IsPlain name := by
  decide +kernel

/-- The files of an index are entries of the output folder. -/
theorem outputFiles_entry {folder : String} {r : Result} {styles : StyleTable} {o : Options}
    {f : OutputFile} (hf : f ∈ outputFiles folder r styles o "index.html") :
    ∃ c, f.path = ⟨(Path.read folder).root, (Path.read folder).parts ++ [c]⟩ := by
  have hpath := (outputFiles_paths folder r styles o _).subset (List.mem_map_of_mem hf)
  obtain ⟨name, hname, hpath⟩ := List.mem_map.mp hpath
  exact ⟨name, hpath.symm.trans (Path.append_plain (index_names_plain name hname) _)⟩

/-- The places of the files of an index: entries of the output folder with different names. -/
theorem places_outputFiles (folder : String) (r : Result) (styles : StyleTable) (o : Options) (s : Store) :
    ∃ names : List String, names.Nodup ∧
      ((outputFiles folder r styles o "index.html").map fun f => s.placeOf f.path) =
        names.map fun name => s.placeOf (Path.read folder) ++ [name] := by
  obtain ⟨names, hsub, hpaths⟩ := List.sublist_map_iff.mp
    (outputFiles_paths folder r styles o "index.html")
  refine ⟨names, List.Nodup.sublist hsub (by decide), ?_⟩
  have hcompose : (fun f : OutputFile => s.placeOf f.path) = s.placeOf ∘ OutputFile.path := rfl
  rw [hcompose, ← List.map_map, hpaths, List.map_map]
  refine List.map_congr_left fun name hname => ?_
  exact Store.placeOf_append_plain (index_names_plain name (hsub.subset hname)) s _

/-- The files of an index stand at different places. -/
theorem nodup_outputFiles (folder : String) (r : Result) (styles : StyleTable) (o : Options) (s : Store) :
    ((outputFiles folder r styles o "index.html").map fun f => s.placeOf f.path).Nodup := by
  obtain ⟨names, hnames, hplaces⟩ := places_outputFiles folder r styles o s
  rw [hplaces]
  exact hnames.map fun a b hab => (List.cons.inj (List.append_cancel_left hab)).1

/-- The files of a conversion lie in one folder: a page that is no index comes alone. -/
theorem outputFiles_parent (folder : String) (r : Result) (styles : StyleTable) {o : Options}
    {fileName : String} (h : o.isChild = true ∨ fileName = "index.html") :
    ∃ below, ∀ f ∈ outputFiles folder r styles o fileName, f.path.parent = below := by
  obtain hchild | rfl := h
  · refine ⟨((Path.read folder).append fileName).parent, fun f hf => ?_⟩
    simp only [outputFiles, if_pos hchild, List.mem_singleton] at hf
    rw [hf]
  · refine ⟨Path.read folder, fun f hf => ?_⟩
    have hpath := (outputFiles_paths folder r styles o _).subset (List.mem_map_of_mem hf)
    obtain ⟨name, hname, hpath⟩ := List.mem_map.mp hpath
    rw [← hpath]
    exact Path.parent_append_plain (index_names_plain name hname) _

/-- **Writing a conversion** into a tree changes nothing if it fails because something is missing. -/
theorem writeConversion_missing {folder : String} {r : Result} {styles : StyleTable} {o : Options}
    {fileName : String} (h : o.isChild = true ∨ fileName = "index.html") {s s' : Store}
    {e : FileError} (hs : s.IsTree)
    (hrun : (writeConversion folder r styles o fileName).run s = (.error e, s'))
    (hmissing : e.Missing) : s' = s := by
  obtain ⟨below, hbelow⟩ := outputFiles_parent folder r styles h
  exact writeAll_missing hbelow hs hrun hmissing

/-- **The files of an index can be read** once they are written. -/
theorem writeConversion_read {folder : String} {r : Result} {styles : StyleTable} {o : Options}
    {s s' : Store} {paths : List String}
    (hrun : (writeConversion folder r styles o "index.html").run s = (.ok paths, s')) :
    ∀ f ∈ outputFiles folder r styles o "index.html",
      s'.read f.path = .ok (Text.encodeUtf8 f.content) :=
  (writeAll_ok hrun).read (nodup_outputFiles folder r styles o s)

end Page

end DesignMarkup
