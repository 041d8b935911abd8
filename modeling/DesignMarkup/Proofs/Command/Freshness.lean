import DesignMarkup.Command.Watch
import DesignMarkup.Proofs.Command.Phases
import DesignMarkup.Proofs.Page.Opening

/-!
# `Proofs.Command.Freshness` — what a run leaves of its output

A run may fail before it writes or while it writes, and it may write over its own input. In each case it leaves
an output that shows the input, or one that could not be written now either.

## Contents

* `Task.settle`, `Task.conversion`: a run in its two parts;
* `Task.Shows`, `Task.Fresh`: **output that shows the input**;
* `loadNode_of_wroteAll`: the input after the output was written;
* `fresh_after_conversion`, `fresh_after_runTask`: **what a run leaves**.
-/

namespace DesignMarkup

/-! ## Output that shows the input -/

namespace Task

/-- The files that a run settles to write. -/
def settle (t : Task) (s : Store) : Except Failure (List Page.OutputFile) :=
  DesignMarkup.settle s t.input t.folder t.options "index.html"

/-- The conversion of a run. -/
def conversion (t : Task) : Command (List String) :=
  convertFile t.input t.folder t.options "index.html"

/-- **The output shows the input**: every file that a run would write stands there with its content. -/
def Shows (t : Task) (s : Store) : Prop :=
  ∃ files, t.settle s = .ok files ∧ ∀ f ∈ files, s.read f.path = .ok (Text.encodeUtf8 f.content)

/-- **The output is as fresh as it can be**: if the input could be converted now, the output shows it. -/
def Fresh (t : Task) (s : Store) : Prop :=
  (∃ files, t.settle s = .ok files ∧ SucceedsFrom (Page.writeAll files) s) → t.Shows s

end Task

section Runs

variable {t : Task}

/-- What a task settles is the output of a conversion of its input. -/
theorem Task.settle_ok {s : Store} {files : List Page.OutputFile} (h : t.settle s = .ok files) :
    ∃ root result styles folder, loadNode s t.input = .ok root ∧
      convertAlone t.options root = .ok (result, styles) ∧ pathText t.folder = .ok folder ∧
      files = Page.outputFiles folder result styles t.options "index.html" := by
  rw [settle, DesignMarkup.settle] at h
  obtain ⟨root, hroot, h⟩ := bind_eq_ok.mp h
  obtain ⟨⟨result, styles⟩, hresult, h⟩ := bind_eq_ok.mp h
  obtain ⟨folder, hfolder, h⟩ := bind_eq_ok.mp h
  exact ⟨root, result, styles, folder, hroot, mapError_eq_ok.mp hresult, hfolder, (pure_eq_ok.mp h).symm⟩

/-- The files decide through the input only. -/
theorem Task.settle_congr {s s' : Store} (h : loadNode s' t.input = loadNode s t.input) :
    t.settle s' = t.settle s := by
  rw [settle, settle, DesignMarkup.settle, DesignMarkup.settle, h]

/-- A conversion that succeeds has settled files and written them. -/
theorem Task.conversion_ok {w w' : World} {paths : List String}
    (h : t.conversion.run w = (.ok paths, w')) :
    ∃ files, t.settle w.files = .ok files ∧ SucceedsFrom (Page.writeAll files) w.files := by
  obtain ⟨talk, hrun⟩ := run_convertFile t.input t.folder t.options "index.html" w
  rcases hsettle : DesignMarkup.settle w.files t.input t.folder t.options "index.html" with e | files
  · rw [hsettle] at hrun
    cases hrun.symm.trans h
  · simp only [hsettle] at hrun
    rcases hwrite : (Page.writeAll files).run w.files with ⟨e | paths', s'⟩
    · rw [hwrite] at hrun
      cases hrun.symm.trans h
    · exact ⟨files, hsettle, paths', s', hwrite⟩

/-- The files after a conversion: nothing has changed, or what was settled was written as far as possible. -/
theorem Task.conversion_files (t : Task) (w : World) :
    (t.conversion.run w).2.files = w.files ∧ (∀ files, t.settle w.files ≠ .ok files) ∨
      ∃ files, t.settle w.files = .ok files ∧
        (t.conversion.run w).2.files = ((Page.writeAll files).run w.files).2 := by
  obtain ⟨talk, hrun⟩ := run_convertFile t.input t.folder t.options "index.html" w
  rw [conversion, hrun]
  rcases hsettle : DesignMarkup.settle w.files t.input t.folder t.options "index.html" with e | files
  · refine .inl ⟨rfl, fun files hfiles => ?_⟩
    cases hsettle.symm.trans hfiles
  · exact .inr ⟨files, hsettle, rfl⟩

/-- Outputs that are written leave the design as it was, or there is none any more. -/
theorem loadNode_of_wroteAll {s s' : Store} {done : List Page.OutputFile} {path : String} {n : Node}
    (hwrote : Page.WroteAll s done s') (hload : loadNode s path = .ok n)
    (hdone : ∀ f ∈ done, ∀ u : Store, u.read (Path.read path) = .ok (Text.encodeUtf8 f.content) →
      ¬Succeeds (loadNode u path))
    (hload' : Succeeds (loadNode s' path)) : loadNode s' path = loadNode s path := by
  have hread : ∃ b, s.read (Path.read path) = .ok b := by
    rw [loadNode] at hload
    obtain ⟨b, hb, -⟩ := bind_eq_ok.mp hload
    exact ⟨b, mapError_eq_ok.mp hb⟩
  obtain ⟨b, hb⟩ := hread
  obtain ⟨place, hplace, hfind⟩ := Store.read_eq_ok_iff.mp hb
  have hplace' := Store.resolve_of_keeps hwrote.keeps hplace
  obtain hsame | ⟨f, hf, -, hlast⟩ := Page.lastAt_cases s place (s.fileAt place) done
  · -- nothing was written over the input
    have hfind' : s'.fileAt place = some b := by
      rw [hwrote.fileAt, hsame, Store.fileAt_eq_some_iff]
      exact hfind
    have hb' : s'.read (Path.read path) = .ok b :=
      Store.read_eq_ok_iff.mpr ⟨place, hplace', Store.fileAt_eq_some_iff.mp hfind'⟩
    rw [loadNode, loadNode, hb, hb']
  · have hfind' : s'.fileAt place = some (Text.encodeUtf8 f.content) := (hwrote.fileAt place).trans hlast
    have hb' : s'.read (Path.read path) = .ok (Text.encodeUtf8 f.content) :=
      Store.read_eq_ok_iff.mpr ⟨place, hplace', Store.fileAt_eq_some_iff.mp hfind'⟩
    exact absurd hload' (hdone f hf s' hb')

/-- **A conversion leaves an output that is as fresh as it can be**, whether or not it succeeds. -/
theorem fresh_after_conversion {w : World} (hs : w.files.IsTree) :
    t.Fresh (t.conversion.run w).2.files := by
  obtain ⟨hsame, hnone⟩ | ⟨files, hsettle, hafter⟩ := t.conversion_files w
  · -- what could not be settled cannot be settled now
    rw [hsame]
    rintro ⟨files, hfiles, -⟩
    exact absurd hfiles (hnone files)
  · rw [hafter]
    rintro ⟨files', hsettle', hagain⟩
    obtain ⟨done, hdone, hwrote⟩ := Page.writeAll_wrote files w.files
    obtain ⟨root, result, styles, folder, hload, -, -, rfl⟩ := Task.settle_ok hsettle
    obtain ⟨root', _, _, _, hload', -, -, -⟩ := Task.settle_ok hsettle'
    have hinput := loadNode_of_wroteAll hwrote hload
      (fun f hf u hread => Page.not_loadNode_of_output (hdone.subset hf) hread) ⟨root', hload'⟩
    rw [Task.settle_congr hinput, hsettle] at hsettle'
    obtain rfl := Except.ok.inj hsettle'
    rcases hrun : (Page.writeAll (Page.outputFiles folder result styles t.options "index.html")).run
      w.files with ⟨e | paths, s'⟩
    · rw [hrun] at hagain
      exact absurd hagain
        (Page.writeAll_fails_again (fun f hf => Page.outputFiles_entry hf) hs hrun)
    · rw [hrun] at hinput
      exact ⟨_, (Task.settle_congr hinput).trans hsettle, Page.writeConversion_read hrun⟩

/-- What is told of a failed run changes no files. -/
theorem runFailed_files (e : Failure) (w : World) : ((runFailed e).run w).2.files = w.files := by
  unfold runFailed
  split
  · rfl
  · rfl
  · rfl

theorem runTask_files (t : Task) (w : World) :
    ((runTask t).run w).2.files = (t.conversion.run w).2.files := by
  rcases hrun : t.conversion.run w with ⟨e | paths, w₁⟩
  · have hfail : (runTask t).run w = (runFailed e).run w₁ :=
      run_tryCatch_error (run_bind_error hrun)
    rw [hfail]
    exact runFailed_files e w₁
  · obtain ⟨_, talk, htalk⟩ := run_talking_ok w₁ (reportPaths_succeeds paths)
    have hok : (runTask t).run w = (.ok (), { w₁ with talk := talk }) :=
      run_tryCatch_ok ((run_bind_ok hrun).trans htalk)
    rw [hok]

/-- **A run leaves a tree in which nothing was taken away**, and an output that is as fresh as it can be. -/
theorem fresh_after_runTask {w : World} (hs : w.files.IsTree) :
    ((runTask t).run w).2.files.IsTree ∧ w.files.Persists ((runTask t).run w).2.files ∧
      t.Fresh ((runTask t).run w).2.files := by
  rw [runTask_files]
  refine ⟨?_, ?_, fresh_after_conversion hs⟩
  · obtain ⟨hsame, -⟩ | ⟨files, -, hafter⟩ := t.conversion_files w
    · rw [hsame]
      exact hs
    · obtain ⟨done, -, hwrote⟩ := Page.writeAll_wrote files w.files
      rw [hafter]
      exact hwrote.tree hs
  · obtain ⟨hsame, -⟩ | ⟨files, -, hafter⟩ := t.conversion_files w
    · rw [hsame]
      exact w.files.persists_refl
    · obtain ⟨done, -, hwrote⟩ := Page.writeAll_wrote files w.files
      rw [hafter]
      exact hwrote.persists

end Runs

end DesignMarkup
