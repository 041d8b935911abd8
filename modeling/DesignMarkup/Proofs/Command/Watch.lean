import DesignMarkup.Proofs.Command.Observer

/-!
# `Proofs.Command.Watch` — what a watch shows when it is stopped

Every run leaves an output that is as fresh as it can be, so the output is up to date as long as the last run
comes after the last change. A watch does not start a run at every event: one that comes too soon after the
event of the run before is passed over, and if nothing happens any more, the output stays behind. Which events
start a run is told by the history of the trigger alone.

Nothing is said of a watch whose observer has ended with a failure. What is saved after that is not shown.

## Contents

* `clockAfter`, `toldIn`, `Tracks`, `passAll_reaches`: **a watch is a history of its trigger**;
* `passMoment_fires`, `passMoment_quiet`, `passAll_quiet`: the output from moment to moment;
* `WatchArgs.Due`, `WatchArgs.Heard`, `WatchArgs.Heard.fresh`: changes that are heard of;
* `watchCommand_apart`: **what an observer apart leaves to the command**;
* `watch_keeps_fresh`: **the output when a watch is stopped**.
-/

namespace DesignMarkup

/-! ## A watch and the history of its trigger -/

/-- The reading of the clock after some moments. -/
def clockAfter (clock : Number) (moments : List Moment) : Number :=
  moments.foldl (fun now m => m.clock.getD now) clock

/-- The event that is told of in a moment, with the reading of the clock. -/
def Moment.told (clock : Number) (m : Moment) : List Told :=
  (m.event.map (Told.mk (m.clock.getD clock))).toList

/-- The events that are told of in some moments. -/
def toldIn : Number → List Moment → List Told
  | _, [] => []
  | clock, m :: rest => m.told clock ++ toldIn (m.clock.getD clock) rest

/-- The state of a watch agrees with what was told of in it. -/
structure Tracks (folder : List String) (clock : Number) (trigger : Trigger) (x : Watching) : Prop where
  clock : x.clock = clock
  trigger : x.trigger = trigger
  here : x.world.files.workingFolder = folder
  tree : x.world.files.IsTree

section History

variable {t : Task} {folder : List String} {clock : Number} {trigger : Trigger} {m : Moment}
  {moments : List Moment} {x x' : Watching}

/-- Before its event a moment brings its files. -/
theorem arrange_tracks (h : Tracks folder clock trigger x) (hremovals : m.removals = []) :
    Tracks folder (m.clock.getD clock) trigger (arrange m x) := by
  have hfiles : (arrange m x).world.files = x.world.files.seed m.writes := by
    rw [arrange, Moment.bring, hremovals]
    rfl
  refine ⟨?_, h.trigger, ?_, ?_⟩
  · rw [← h.clock]
    rfl
  · rw [hfiles, (x.world.files.seed_persists m.writes).keeps.here, h.here]
  · rw [hfiles]
    exact h.tree.seed _

/-- **A moment is told to the trigger.** -/
theorem passMoment_tracks (h : Tracks folder clock trigger x) (hremovals : m.removals = [])
    (hrun : (passMoment t m).run x = (.ok (), x')) (halive : x'.observer.isAlive = true) :
    Tracks folder (m.clock.getD clock) (trigger.after folder (m.told clock)) x' := by
  have harranged := arrange_tracks h hremovals
  obtain ⟨hevent, rfl⟩ | ⟨e, y, hevent, hhandled, rfl⟩ := passMoment_cases harranged.tree hrun halive
  · rw [Moment.told, hevent]
    exact ⟨harranged.clock, harranged.trigger, harranged.here, harranged.tree⟩
  · rw [Moment.told, hevent]
    refine ⟨hhandled.clock.trans harranged.clock, ?_, hhandled.here.trans harranged.here, hhandled.tree⟩
    have hheard := hhandled.trigger
    rw [harranged.trigger, harranged.here, harranged.clock] at hheard
    exact hheard

/-- A moment that brings no files leaves an output as fresh as it was. -/
theorem passMoment_quiet (h : Tracks folder clock trigger x) (hremovals : m.removals = [])
    (hwrites : m.writes = []) (hfresh : t.Fresh x.world.files)
    (hrun : (passMoment t m).run x = (.ok (), x')) (halive : x'.observer.isAlive = true) :
    t.Fresh x'.world.files := by
  have hsame : (arrange m x).world.files = x.world.files := by
    rw [arrange, Moment.bring, hremovals, hwrites]
    rfl
  have hfresh' : t.Fresh (arrange m x).world.files := by rwa [hsame]
  obtain ⟨-, rfl⟩ | ⟨e, y, -, hhandled, rfl⟩ :=
    passMoment_cases (arrange_tracks h hremovals).tree hrun halive
  · exact hfresh'
  · exact hhandled.keeps hfresh'

/-- **A moment whose event starts a run** leaves an output that is as fresh as it can be. -/
theorem passMoment_fires {e : Event} (h : Tracks folder clock trigger x) (hremovals : m.removals = [])
    (hevent : m.event = some e) (hfires : trigger.fires folder ⟨m.clock.getD clock, e⟩ = true)
    (hrun : (passMoment t m).run x = (.ok (), x')) (halive : x'.observer.isAlive = true) :
    t.Fresh x'.world.files := by
  have harranged := arrange_tracks h hremovals
  obtain ⟨hnone, -⟩ | ⟨e', y, hevent', hhandled, rfl⟩ := passMoment_cases harranged.tree hrun halive
  · exact absurd (hnone.symm.trans hevent) nofun
  · obtain rfl := Option.some.inj (hevent.symm.trans hevent')
    refine hhandled.fresh ?_
    rw [harranged.trigger, harranged.here, harranged.clock]
    exact hfires

/-- **A watch reaches each of its moments** with the trigger that has heard of all before. -/
theorem passAll_reaches {before rest : List Moment} (h : Tracks folder clock trigger x)
    (hremovals : ∀ m ∈ before, m.removals = [])
    (hrun : (passAll t (before ++ rest)).run x = (.ok (), x')) (halive : x'.observer.isAlive = true) :
    ∃ y, Tracks folder (clockAfter clock before) (trigger.after folder (toldIn clock before)) y ∧
      (passAll t rest).run y = (.ok (), x') := by
  induction before generalizing clock trigger x with
  | nil => exact ⟨x, h, hrun⟩
  | cons m before ih =>
    obtain ⟨hm, hbefore⟩ := List.forall_mem_cons.mp hremovals
    rw [List.cons_append, passAll] at hrun
    obtain ⟨_, x₁, hmoment, hothers⟩ := ok_of_run_bind hrun
    rw [toldIn, Trigger.after_append]
    exact ih (passMoment_tracks h hm hmoment (alive_of_passAll hothers halive)) hbefore hothers

/-- While no files are brought the output stays as fresh as it was. -/
theorem passAll_quiet (h : Tracks folder clock trigger x) (hremovals : ∀ m ∈ moments, m.removals = [])
    (hwrites : ∀ m ∈ moments, m.writes = []) (hfresh : t.Fresh x.world.files)
    (hrun : (passAll t moments).run x = (.ok (), x')) (halive : x'.observer.isAlive = true) :
    t.Fresh x'.world.files := by
  induction moments generalizing clock trigger x with
  | nil =>
    obtain ⟨talk, hstop⟩ := run_passAll_nil t x
    obtain ⟨-, rfl⟩ := Prod.mk.inj (hrun.symm.trans hstop)
    exact hfresh
  | cons m rest ih =>
    obtain ⟨hm, hrest⟩ := List.forall_mem_cons.mp hremovals
    obtain ⟨hmwrites, hrestwrites⟩ := List.forall_mem_cons.mp hwrites
    rw [passAll] at hrun
    obtain ⟨_, x₁, hmoment, hothers⟩ := ok_of_run_bind hrun
    have halive₁ := alive_of_passAll hothers halive
    exact ih (passMoment_tracks h hm hmoment halive₁) hrest hrestwrites
      (passMoment_quiet h hm hmwrites hfresh hmoment halive₁) hothers

end History

/-! ## Changes that are heard of -/

/-- The reading of the clock at the last event of some moments that started a run. -/
def WatchArgs.lastRun (a : WatchArgs) (folder : List String) (moments : List Moment) : Number :=
  DesignMarkup.lastRun ((a.trigger folder).runs folder (toldIn zeroTime moments))

/-- **A moment is due** after others: its event tells of new content in the watched file, and it does not come
within the pause of the event that started the last run. -/
def WatchArgs.Due (a : WatchArgs) (folder : List String) (before : List Moment) (m : Moment) : Prop :=
  ∃ e, m.event = some e ∧ e.Relevant folder (some a.input) ∧
    Succeeds ((m.clock.getD (clockAfter zeroTime before)).sub (a.lastRun folder before)) ∧
    ¬TooSoon defaultPause (a.lastRun folder before) (m.clock.getD (clockAfter zeroTime before))

/-- **All changes are heard of**: there are none, or a moment is due at the last one or after it. -/
def WatchArgs.Heard (a : WatchArgs) (folder : List String) (moments : List Moment) : Prop :=
  (∀ m ∈ moments, m.writes = []) ∨
    ∃ before m after, moments = before ++ m :: after ∧ a.Due folder before m ∧
      ∀ n ∈ after, n.writes = []

/-- The event of a moment that is due starts a run. -/
theorem WatchArgs.due_iff {a : WatchArgs} {folder : List String} {before : List Moment} {m : Moment} :
    a.Due folder before m ↔ ∃ e, m.event = some e ∧
      ((a.trigger folder).after folder (toldIn zeroTime before)).fires folder
        ⟨m.clock.getD (clockAfter zeroTime before), e⟩ = true := by
  simp only [Due, trigger, Trigger.fires_start_iff]
  rfl

/-- **The output after a watch of which all changes were heard.** -/
theorem WatchArgs.Heard.fresh {a : WatchArgs} {folder : List String} {t : Task} {moments : List Moment}
    {x x' : Watching} (hheard : a.Heard folder moments)
    (h : Tracks folder zeroTime (a.trigger folder) x) (hfresh : t.Fresh x.world.files)
    (hremovals : ∀ m ∈ moments, m.removals = []) (hrun : (passAll t moments).run x = (.ok (), x'))
    (halive : x'.observer.isAlive = true) : t.Fresh x'.world.files := by
  obtain hquiet | ⟨before, m, after, rfl, hdue, hquiet⟩ := hheard
  · -- the run before the first moment has seen all there is
    exact passAll_quiet h hremovals hquiet hfresh hrun halive
  · obtain ⟨hbefore, hrest⟩ := List.forall_mem_append.mp hremovals
    obtain ⟨hm, hafter⟩ := List.forall_mem_cons.mp hrest
    obtain ⟨e, hevent, hfires⟩ := due_iff.mp hdue
    obtain ⟨y, htracks, hrun⟩ := passAll_reaches h hbefore hrun halive
    rw [passAll] at hrun
    obtain ⟨_, y₁, hmoment, hothers⟩ := ok_of_run_bind hrun
    have halive₁ := alive_of_passAll hothers halive
    exact passAll_quiet (passMoment_tracks htracks hm hmoment halive₁) hafter hquiet
      (passMoment_fires htracks hm hevent hfires hmoment halive₁) hothers halive

/-! ## The output when a watch is stopped -/

theorem sayWatching_succeeds (t : Task) (talk : Talk) : SucceedsFrom (sayWatching t) talk :=
  succeedsFrom_bind (say_succeeds _ talk) fun _ talk' =>
    succeedsFrom_bind (say_succeeds _ talk') fun _ talk'' => say_succeeds _ talk''

/-- The first run is a run, after a few lines. -/
theorem run_firstRun (t : Task) (w : World) :
    ∃ talk, (firstRun t).run w = (runTask t).run { w with talk := talk } := by
  obtain ⟨_, talk, htalk⟩ := run_talking_ok w (sayWatching_succeeds t)
  exact ⟨talk, run_bind_ok htalk⟩

/-- The state in which a folder is watched. -/
def Watching.watched (x : Watching) (folder : String) : Watching :=
  (x.note (.schedule folder false)).note .start

/-- Watching is to pass all moments, between signals that are noted whatever happens. -/
theorem run_watchThrough (t : Task) (folder : String) (moments : List Moment) (x : Watching) :
    (watchThrough t folder moments).run x =
      (((passAll t moments).run (x.watched folder)).1,
        ((passAll t moments).run (x.watched folder)).2.note .join) := by
  rw [watchThrough, signal, run_modify_bind, signal, run_modify_bind]
  rcases hpass : (passAll t moments).run (x.watched folder) with ⟨e | _, x₁⟩
  · exact run_bind_error (run_tryCatch_error hpass)
  · exact run_bind_ok (run_tryCatch_ok hpass)

section Command

variable {a : WatchArgs} {c : Config} {w w₁ : World}

theorem watchCommand_of_firstRun_error {e : Failure} (o : Observer) (moments : List Moment)
    (h : (firstRun (a.task c)).run w = (.error e, w₁)) :
    watchCommand o a c moments w = ⟨.error e, w₁, [], o⟩ := by
  rw [watchCommand, h]

/-- After a first run that succeeds all moments pass. -/
theorem watchCommand_of_firstRun_ok (o : Observer) (moments : List Moment)
    (h : (firstRun (a.task c)).run w = (.ok (), w₁)) :
    ∃ folder r x', (passAll (a.task c) moments).run ((a.opening o w₁).watched folder) = (r, x') ∧
      watchCommand o a c moments w =
        ⟨r.map fun _ => 0, x'.world, x'.signals ++ [.join], x'.observer⟩ := by
  refine ⟨watchedFolder w₁.files.workingFolder a.input, _, _, rfl, ?_⟩
  simp only [watchCommand, h, run_watchThrough]
  rfl

/-- **With an observer apart the command fails in its first run or not at all.** -/
theorem watchCommand_apart (ended : Option Failure) (a : WatchArgs) (c : Config) (moments : List Moment)
    (w : World) :
    (watchCommand (.apart ended) a c moments w).result =
      ((firstRun (a.task c)).run w).1.map fun _ => 0 := by
  rcases hfirst : (firstRun (a.task c)).run w with ⟨e | _, w₁⟩
  · rw [watchCommand_of_firstRun_error _ _ hfirst]
    rfl
  · obtain ⟨folder, r, x', hpass, hrun⟩ :=
      watchCommand_of_firstRun_ok (.apart ended) moments hfirst
    obtain ⟨u, y, hok⟩ := passAll_apart (a.task c) moments
      (x := (a.opening (.apart ended) w₁).watched folder) rfl
    obtain ⟨rfl, -⟩ := Prod.mk.inj (hpass.symm.trans hok)
    rw [hrun]

/-- **The output when a watch is stopped.** Suppose that no failure has ended the command or its observer, and
that all changes were heard of. If the file could be converted now, the page and the stylesheet in the output
folder are those of the file as it is now. -/
theorem watch_keeps_fresh (o : Observer) (a : WatchArgs) (c : Config) (moments : List Moment) (w w' : World)
    (out : WatchOutcome) (paths : List String) (htree : w.files.IsTree)
    (hremovals : ∀ m ∈ moments, m.removals = []) (hrun : watchCommand o a c moments w = out)
    (hcode : out.result = .ok 0) (halive : out.observer.isAlive = true)
    (hheard : a.Heard w.files.workingFolder moments)
    (hconverts : (convertFile a.input (c.outputFolder a.output) (c.options { title := a.title })
      "index.html").run out.world = (.ok paths, w')) :
    ∃ root result styles folder, loadNode out.world.files a.input = .ok root ∧
      convertAlone (c.options { title := a.title }) root = .ok (result, styles) ∧
      pathText (c.outputFolder a.output) = .ok folder ∧
      out.world.files.read ((Path.read folder).append "index.html") =
        .ok (Text.encodeUtf8 (Page.pageText result (c.options { title := a.title }))) ∧
      out.world.files.read ((Path.read folder).append "styles.css") =
        .ok (Text.encodeUtf8 (Page.stylesheet styles (c.options { title := a.title }).bootstrapVersion)) := by
  rcases hfirst : (firstRun (a.task c)).run w with ⟨e | _, w₁⟩
  · -- a first run that fails is not followed by a watch
    rw [watchCommand_of_firstRun_error _ _ hfirst] at hrun
    obtain rfl := hrun
    cases hcode
  · obtain ⟨folder, r, x', hpass, hout⟩ := watchCommand_of_firstRun_ok o moments hfirst
    obtain rfl := hout.symm.trans hrun
    obtain ⟨talk, htask⟩ := run_firstRun (a.task c) w
    obtain ⟨htree₁, hpersists, hfresh⟩ :=
      fresh_after_runTask (t := a.task c) (w := { w with talk := talk }) htree
    rw [← htask, hfirst] at htree₁ hpersists hfresh
    have hhere : w₁.files.workingFolder = w.files.workingFolder := hpersists.keeps.here
    have htracks : Tracks w.files.workingFolder zeroTime (a.trigger w.files.workingFolder)
        ((a.opening o w₁).watched folder) :=
      ⟨rfl, congrArg a.trigger hhere, hhere, htree₁⟩
    have hpassed : (passAll (a.task c) moments).run ((a.opening o w₁).watched folder) = (.ok (), x') := by
      cases r with
      | ok u => exact hpass
      | error e => cases hcode
    obtain ⟨files, hsettle, hreads⟩ :=
      hheard.fresh htracks hfresh hremovals hpassed halive (Task.conversion_ok hconverts)
    obtain ⟨root, result, styles, folder, hload, hresult, hfolder, rfl⟩ := Task.settle_ok hsettle
    have hpage := Page.page_mem_outputFiles folder result styles (a.task c).options "index.html"
    have hsheet := Page.stylesheet_mem_outputFiles folder result styles
      (rfl : (a.task c).options.isChild = false) "index.html"
    exact ⟨root, result, styles, folder, hload, hresult, hfolder, hreads _ hpage, hreads _ hsheet⟩

end Command

/-! ### A label that is saved again -/

/-- A label as a file. -/
def labelFile (text : String) : ByteArray :=
  Text.encodeUtf8 ((Json.object [("type", .string "TEXT"), ("characters", .string text)]).indented 0)

/-- A world with a label. -/
def labelWorld (text : String) : World :=
  ⟨(Store.empty ["home"]).seed [("label.json", labelFile text)], ⟨"", ⟨[], []⟩⟩⟩

/-- The arguments of a watch of the label. -/
def labelWatch : WatchArgs where
  input := "label.json"
  output := some "out"
  title := none

/-- A moment in which the label is saved and told of, some half seconds after the start of time. -/
def saving (halves : Nat) (text : String) : Moment where
  clock := some (.double (Binary64.round false halves 2))
  writes := [("label.json", labelFile text)]
  removals := []
  event := some ⟨.modified, "label.json", false⟩

/-- What comes of watching the label with an observer apart. -/
def labelOutcome (moments : List Moment) : WatchOutcome :=
  watchCommand (.apart none) labelWatch [] moments (labelWorld "one")

/-- The first run succeeds, and no later one can end the command. -/
theorem labelOutcome_result (moments : List Moment) : (labelOutcome moments).result = .ok 0 := by
  have hfirst : ((firstRun (labelWatch.task [])).run (labelWorld "one")).1.toOption = some () := by
    decide +kernel
  rw [labelOutcome, watchCommand_apart, run_of_toOption hfirst]
  rfl

/-- The label is saved at one second and at two. -/
theorem savings_shown :
    ∃ out w' paths, (labelWorld "one").files.IsTree ∧
      labelWatch.Heard ["home"] [saving 2 "two", saving 4 "three"] ∧
      watchCommand (.apart none) labelWatch [] [saving 2 "two", saving 4 "three"] (labelWorld "one") = out ∧
      out.result = .ok 0 ∧ out.observer.isAlive = true ∧
      (convertFile "label.json" (.string "out") (Config.options [] {}) "index.html").run out.world =
        (.ok paths, w') ∧
      ∃ root result styles, loadNode out.world.files "label.json" = .ok root ∧
        convertAlone (Config.options [] {}) root = .ok (result, styles) ∧
        out.world.files.read ((Path.read "out").append "index.html") =
          .ok (Text.encodeUtf8 (Page.pageText result (Config.options [] {}))) := by
  have htree : (labelWorld "one").files.IsTree := (Store.isTree_empty _).seed _
  have hdue : labelWatch.Due ["home"] [saving 2 "two"] (saving 4 "three") :=
    WatchArgs.due_iff.mpr ⟨_, rfl, by decide +kernel⟩
  have hheard : labelWatch.Heard ["home"] [saving 2 "two", saving 4 "three"] :=
    .inr ⟨[saving 2 "two"], saving 4 "three", [], rfl, hdue, fun _ h => absurd h List.not_mem_nil⟩
  have hresult := labelOutcome_result [saving 2 "two", saving 4 "three"]
  have halive : (labelOutcome [saving 2 "two", saving 4 "three"]).observer.isAlive = true := by
    decide +kernel
  have hconvert : ((convertFile "label.json" (.string "out") (Config.options [] {}) "index.html").run
      (labelOutcome [saving 2 "two", saving 4 "three"]).world).1.toOption =
        some ["out/index.html", "out/styles.css"] := by
    decide +kernel
  have hconverts := run_of_toOption hconvert
  obtain ⟨root, result, styles, folder, hload, hconverted, hfolder, hpage, -⟩ :=
    watch_keeps_fresh (.apart none) labelWatch [] _ _ _ _ _ htree (by decide) rfl hresult halive hheard
      hconverts
  obtain rfl := Except.ok.inj hfolder
  exact ⟨labelOutcome [saving 2 "two", saving 4 "three"], _, _, htree, hheard, rfl, hresult, halive,
    hconverts, root, result, styles, hload, hconverted, hpage⟩

/-- **A change is passed over.** The label is saved at one second and half a second later, and each time it is
told of. The second event comes too soon, so when the watch is stopped the page is that of the label before,
although no run has failed and the label could be converted as it is now. -/
theorem hasty_saving_not_shown :
    ∃ out w' paths,
      watchCommand (.apart none) labelWatch [] [saving 2 "two", saving 3 "three"] (labelWorld "one") = out ∧
      out.result = .ok 0 ∧ out.observer.isAlive = true ∧
      (convertFile "label.json" (.string "out") (Config.options [] {}) "index.html").run out.world =
        (.ok paths, w') ∧
      out.world.files.read ((Path.read "out").append "index.html") ≠
        w'.files.read ((Path.read "out").append "index.html") := by
  have halive : (labelOutcome [saving 2 "two", saving 3 "three"]).observer.isAlive = true := by
    decide +kernel
  have hconvert : ((convertFile "label.json" (.string "out") (Config.options [] {}) "index.html").run
      (labelOutcome [saving 2 "two", saving 3 "three"]).world).1.toOption =
        some ["out/index.html", "out/styles.css"] := by
    decide +kernel
  have hbehind : ((labelOutcome [saving 2 "two", saving 3 "three"]).world.files.read
      ((Path.read "out").append "index.html")).toOption ≠
        (((convertFile "label.json" (.string "out") (Config.options [] {}) "index.html").run
          (labelOutcome [saving 2 "two", saving 3 "three"]).world).2.files.read
            ((Path.read "out").append "index.html")).toOption := by
    decide +kernel
  exact ⟨labelOutcome [saving 2 "two", saving 3 "three"], _, _, rfl, labelOutcome_result _, halive,
    run_of_toOption hconvert, fun hsame => hbehind (congrArg Except.toOption hsame)⟩

end DesignMarkup
