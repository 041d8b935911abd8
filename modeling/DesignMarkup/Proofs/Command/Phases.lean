import DesignMarkup.Command.Fetch
import DesignMarkup.Proofs.Page.Output

/-!
# `Proofs.Command.Phases` — commands settle everything before they write

The commands that write run in two phases. In the first they read, ask and convert, and touch no file; it
settles what is to be written, unless something fails. The second writes. So a run that fails has changed
files only if it failed in writing, and then it says so: the one failure in writing that is told of like a
failure in reading, that something is missing, has changed nothing.

## Contents

* `run_talking`, `run_filing`, `run_reading`: the parts of a command;
* `TwoPhase`: **a run in two phases**;
* `settle`, `run_convertFile`, `convertCommand_twoPhase`: the command that converts a file;
* `FetchArgs.plan`, `fetchCommand_twoPhase`: the command that fetches a frame;
* `FromWriting`, `failed_run_keeps_files`: **no output after a failed run**.
-/

namespace DesignMarkup

/-! ## The parts of a command -/

section Parts

variable {α β : Type} (w : World)

theorem run_talking (m : Talking α) :
    (talking m).run w = ((m.run w.talk).1, { w with talk := (m.run w.talk).2 }) :=
  rfl

theorem run_filing (m : Filing α) :
    (filing m).run w =
      ((m.run w.files).1.mapError .file, { w with files := (m.run w.files).2 }) :=
  rfl

/-- After a look at the files nothing has changed. -/
theorem run_reading_ok {f : Store → Except Failure α} {a : α} (h : f w.files = .ok a)
    (g : α → Command β) : (reading f >>= g).run w = (g a).run w :=
  run_bind_ok (congrArg (·, w) h)

theorem run_reading_error {f : Store → Except Failure α} {e : Failure} (h : f w.files = .error e)
    (g : α → Command β) : (reading f >>= g).run w = (.error e, w) :=
  run_bind_error (congrArg (·, w) h)

/-- Talk that never fails goes on with other talk and the same files. -/
theorem run_talking_ok {m : Talking α} (h : ∀ t, SucceedsFrom m t) :
    ∃ a t, (talking m).run w = (.ok a, { w with talk := t }) := by
  obtain ⟨a, t, hm⟩ := h w.talk
  refine ⟨a, t, ?_⟩
  rw [run_talking, hm]

end Parts

theorem say_succeeds (line : String) (t : Talk) : SucceedsFrom (say line) t :=
  ⟨(), _, rfl⟩

theorem sayAll_succeeds (lines : List String) (t : Talk) : SucceedsFrom (sayAll lines) t := by
  induction lines generalizing t with
  | nil => exact succeedsFrom_pure () t
  | cons l rest ih => exact succeedsFrom_bind (say_succeeds l t) fun _ t' => ih t'

theorem reportPaths_succeeds (paths : List String) (t : Talk) :
    SucceedsFrom (reportPaths paths) t := by
  induction paths generalizing t with
  | nil => exact succeedsFrom_pure () t
  | cons p rest ih => exact succeedsFrom_bind (say_succeeds _ t) fun _ t' => ih t'

theorem report_succeeds (paths : List String) (line : String) (t : Talk) :
    SucceedsFrom (do reportPaths paths; say line : Talking Unit) t :=
  succeedsFrom_bind (reportPaths_succeeds paths t) fun _ t' => say_succeeds line t'

theorem sayComponents_succeeds (components : List Layer) (t : Talk) :
    SucceedsFrom (sayComponents components) t := by
  rw [sayComponents]
  split
  · exact succeedsFrom_pure () t
  · exact say_succeeds _ t

/-! ## Two phases -/

/-- **A run in two phases.** Either nothing was settled, and no file was touched; or `m` was settled, and
its run is all that happened to the files. A failure in writing is passed on, or it is one of those that
are told of. -/
inductive TwoPhase (told : FileError → Prop) (settled : Option (Filing (List String))) (w : World)
    (r : Except Failure Nat) (w' : World) : Prop where
  /-- The first phase failed. -/
  | unsettled (none : settled = none) (files : w'.files = w.files) (failed : r ≠ .ok 0)
  /-- Writing failed. -/
  | stopped {m : Filing (List String)} {e : FileError} (some : settled = some m)
    (run : m.run w.files = (.error e, w'.files))
    (failed : r = .error (.file e) ∨ r = .ok 1 ∧ told e)
  /-- All was written. -/
  | written {m : Filing (List String)} {paths : List String} (some : settled = some m)
    (run : m.run w.files = (.ok paths, w'.files)) (done : r = .ok 0)

/-- A run in two phases that ended with code 0 has written what was settled. -/
theorem TwoPhase.written_of_ok {told : FileError → Prop} {settled : Option (Filing (List String))}
    {w w' : World} (h : TwoPhase told settled w (.ok 0) w') :
    ∃ m paths, settled = some m ∧ m.run w.files = (.ok paths, w'.files) := by
  cases h with
  | unsettled _ _ hne => exact absurd rfl hne
  | stopped _ _ hend =>
    obtain hend | ⟨hend, -⟩ := hend
    · cases hend
    · cases hend
  | written hsettled hrun _ => exact ⟨_, _, hsettled, hrun⟩

/-- The files that converting a file settles to write. -/
def settle (s : Store) (input : String) (folder : Json) (o : Options) (fileName : String) :
    Except Failure (List Page.OutputFile) := do
  let root ← loadNode s input
  let (result, styles) ← (convertAlone o root).mapError .conversion
  let folder ← pathText folder
  return Page.outputFiles folder result styles o fileName

/-- **Converting a file** settles what is to be written and then writes it. -/
theorem run_convertFile (input : String) (folder : Json) (o : Options) (fileName : String) (w : World) :
    ∃ t, (convertFile input folder o fileName).run w =
      match settle w.files input folder o fileName with
      | .error e => (.error e, { w with talk := t })
      | .ok files => (((Page.writeAll files).run w.files).1.mapError .file,
          ⟨((Page.writeAll files).run w.files).2, t⟩) := by
  simp only [convertFile, settle]
  rcases hroot : loadNode w.files input with e | root
  · exact ⟨w.talk, run_reading_error w hroot _⟩
  rw [run_reading_ok w hroot]
  rw [ok_bind]
  rcases hresult : (convertAlone o root).mapError Failure.conversion with e | ⟨result, styles⟩
  · exact ⟨w.talk, run_reading_error w rfl _⟩
  rw [run_reading_ok w (f := fun _ => .ok (result, styles)) rfl, ok_bind]
  obtain ⟨_, t, htalk⟩ := run_talking_ok w (sayComponents_succeeds result.components)
  refine ⟨t, ?_⟩
  rw [run_bind_ok htalk]
  rcases pathText folder with e | folder
  · exact run_reading_error { w with talk := t } rfl _
  · exact run_reading_ok { w with talk := t } (f := fun _ => .ok folder) rfl _

/-- What converting a file settles to write. -/
def ConvertArgs.settled (a : ConvertArgs) (c : Config) (s : Store) :
    Except Failure (Filing (List String)) := do
  let root ← loadNode s a.input
  let (result, styles) ← (convertAlone (a.options c) root).mapError .conversion
  let folder ← pathText (c.outputFolder a.output)
  return Page.writeConversion folder result styles (a.options c) a.fileName

theorem ConvertArgs.settled_eq_map (a : ConvertArgs) (c : Config) (s : Store) :
    a.settled c s =
      (settle s a.input (c.outputFolder a.output) (a.options c) a.fileName).map Page.writeAll := by
  rw [ConvertArgs.settled, settle]
  rcases loadNode s a.input with e | root
  · rfl
  rw [ok_bind, ok_bind]
  rcases (convertAlone (a.options c) root).mapError Failure.conversion with e | ⟨result, styles⟩
  · rfl
  rw [ok_bind, ok_bind]
  rcases pathText (c.outputFolder a.output) with e | folder
  · rfl
  · rfl

/-- Only missing files and faulty data are told of; all other failures are passed on. -/
theorem run_convertFailed (input : String) (e : Failure) (w : World) :
    ∃ t r, (convertFailed input e).run w = (r, { w with talk := t }) ∧
      (r = .error e ∨ r = .ok 1 ∧ ∀ fault, e = .file fault → fault.Missing) := by
  unfold convertFailed
  split
  · next path =>
    refine ⟨_, _, rfl, .inr ⟨rfl, fun fault h => ?_⟩⟩
    cases h
    exact ⟨path, rfl⟩
  · exact ⟨_, _, rfl, .inr ⟨rfl, nofun⟩⟩
  · exact ⟨_, _, rfl, .inl rfl⟩

/-- **The command that converts a file** runs in two phases. -/
theorem convertCommand_twoPhase {a : ConvertArgs} {c : Config} {w w' : World} {r : Except Failure Nat}
    (h : (convertCommand a c).run w = (r, w')) :
    TwoPhase FileError.Missing (a.settled c w.files).toOption w r w' := by
  rw [convertCommand] at h
  obtain ⟨_, t, htalk⟩ := run_talking_ok w (say_succeeds ("🚀 Converting: " ++ a.input))
  rw [run_bind_ok htalk] at h
  obtain ⟨t', hrun⟩ := run_convertFile a.input (c.outputFolder a.output) (a.options c) a.fileName
    { w with talk := t }
  rw [ConvertArgs.settled_eq_map]
  rcases hsettled : settle w.files a.input (c.outputFolder a.output) (a.options c) a.fileName with
    e | files
  · -- what failed in the first phase is handled with the files as they were
    rw [hsettled] at hrun
    rw [run_tryCatch_error (run_bind_error hrun)] at h
    obtain ⟨t'', r', hfailed, hr⟩ := run_convertFailed a.input e { w with talk := t' }
    obtain ⟨rfl, rfl⟩ := Prod.mk.inj (hfailed.symm.trans h)
    refine .unsettled rfl rfl ?_
    obtain rfl | ⟨rfl, -⟩ := hr
    · exact nofun
    · exact nofun
  · rw [hsettled] at hrun
    rcases hm : (Page.writeAll files).run w.files with ⟨e | paths, s'⟩
    · simp only [hm] at hrun
      rw [run_tryCatch_error (run_bind_error hrun)] at h
      obtain ⟨t'', r', hfailed, hr⟩ := run_convertFailed a.input (.file e) ⟨s', t'⟩
      obtain ⟨rfl, rfl⟩ := Prod.mk.inj (hfailed.symm.trans h)
      exact .stopped rfl hm (hr.imp_right fun hr => ⟨hr.1, hr.2 e rfl⟩)
    · simp only [hm] at hrun
      obtain ⟨_, t'', htalk'⟩ := run_talking_ok ⟨s', t'⟩ (report_succeeds paths "   ✅ Done.")
      rw [run_tryCatch_ok (run_bind_ok hrun |>.trans (run_bind_ok htalk'))] at h
      obtain ⟨rfl, rfl⟩ := Prod.mk.inj h
      exact .written rfl hm rfl

/-! ## Fetching a frame -/

/-- What fetching a frame settles to write. -/
def FetchArgs.plan (a : FetchArgs) (c : Config) (env : Environment) (t : Talk) : Option FetchPlan :=
  match serviceOf c env a.fileKey [tokenHint] with
  | .error _ => none
  | .ok s => ((tryPlan s a c).run t).1.toOption.join

/-- **The command that fetches a frame** runs in two phases. -/
theorem fetchCommand_twoPhase {a : FetchArgs} {c : Config} {env : Environment} {w w' : World}
    {r : Except Failure Nat} (h : (fetchCommand a c env).run w = (r, w')) :
    TwoPhase (fun _ => False) ((a.plan c env w.talk).map writePlan) w r w' := by
  rw [fetchCommand] at h
  rw [FetchArgs.plan]
  cases hservice : serviceOf c env a.fileKey [tokenHint] with
  | error lines =>
    rw [hservice] at h
    obtain ⟨_, t, htalk⟩ := run_talking_ok w (sayAll_succeeds lines)
    obtain ⟨rfl, rfl⟩ := Prod.mk.inj ((run_bind_ok htalk).symm.trans h)
    exact .unsettled rfl rfl nofun
  | ok s =>
    rw [hservice] at h
    have hplan := run_talking w (tryPlan s a c)
    -- asking and converting have no files to change; only a plan leads to writing
    rcases htry : (tryPlan s a c).run w.talk with ⟨e | plan?, t⟩
    · rw [htry] at hplan
      obtain ⟨rfl, rfl⟩ := Prod.mk.inj ((run_bind_error hplan).symm.trans h)
      exact .unsettled (by simp only [htry]; rfl) rfl nofun
    · rw [htry] at hplan
      replace h := (run_bind_ok hplan).symm.trans h
      cases plan? with
      | none =>
        obtain ⟨rfl, rfl⟩ := Prod.mk.inj h
        exact .unsettled (by simp only [htry]; rfl) rfl nofun
      | some plan =>
        have hsome : Option.map writePlan ((tryPlan s a c).run w.talk).1.toOption.join =
            some (writePlan plan) := by
          rw [htry]
          rfl
        have hfiling := run_filing ⟨w.files, t⟩ (writePlan plan)
        rcases hwrite : (writePlan plan).run w.files with ⟨e | paths, s'⟩
        · rw [hwrite] at hfiling
          obtain ⟨rfl, rfl⟩ := Prod.mk.inj ((run_bind_error hfiling).symm.trans h)
          exact .stopped hsome hwrite (.inl rfl)
        · rw [hwrite] at hfiling
          obtain ⟨_, t', htalk⟩ :=
            run_talking_ok ⟨s', t⟩ (report_succeeds paths "   ✅ Conversion complete!")
          obtain ⟨rfl, rfl⟩ := Prod.mk.inj
            (((run_bind_ok hfiling).trans (run_bind_ok htalk)).symm.trans h)
          exact .written hsome hwrite rfl

/-! ## No output after a failed run -/

/-- The failure was raised by writing what had been settled. -/
def FromWriting (settled : Option (Filing (List String))) (s : Store) (e : Failure) : Prop :=
  ∃ m fault s', settled = some m ∧ m.run s = (.error fault, s') ∧ e = .file fault

/-- The run ended with code 1, or with a failure that was not raised by writing. -/
def Failed (settled : Option (Filing (List String))) (s : Store) (r : Except Failure Nat) : Prop :=
  r = .ok 1 ∨ ∃ e, r = .error e ∧ ¬FromWriting settled s e

/-- **A run in two phases that failed has changed no file**, if the failures in writing that are told of
have changed none. -/
theorem TwoPhase.files_eq {told : FileError → Prop} {settled : Option (Filing (List String))}
    {w w' : World} {r : Except Failure Nat} (h : TwoPhase told settled w r w')
    (hfailed : Failed settled w.files r)
    (htold : ∀ m e, settled = some m → m.run w.files = (.error e, w'.files) → told e →
      w'.files = w.files) : w'.files = w.files := by
  cases h with
  | unsettled _ hfiles _ => exact hfiles
  | @stopped m e hsettled hrun hend =>
    obtain herror | ⟨hone, he⟩ := hend
    · -- a failure that was passed on was raised by writing
      obtain hone | ⟨e', he, hnot⟩ := hfailed
      · cases herror.symm.trans hone
      · obtain rfl := Except.error.inj (he.symm.trans herror)
        exact absurd ⟨m, e, w'.files, hsettled, hrun, rfl⟩ hnot
    · exact htold m e hsettled hrun he
  | written _ _ hdone =>
    obtain hone | ⟨e, he, -⟩ := hfailed
    · cases hone.symm.trans hdone
    · cases he.symm.trans hdone

/-- What converting a file settles is to write a conversion, of a child unless the page is an index. -/
theorem ConvertArgs.settled_eq {a : ConvertArgs} {c : Config} {s : Store} {m : Filing (List String)}
    (h : (a.settled c s).toOption = some m) :
    ∃ folder result styles, m = Page.writeConversion folder result styles (a.options c) a.fileName := by
  rcases hsettled : a.settled c s with e | m'
  · rw [hsettled] at h
    cases h
  · rw [hsettled] at h
    obtain rfl := Option.some.inj h
    rw [ConvertArgs.settled] at hsettled
    obtain ⟨root, -, hsettled⟩ := bind_eq_ok.mp hsettled
    obtain ⟨⟨result, styles⟩, -, hsettled⟩ := bind_eq_ok.mp hsettled
    obtain ⟨folder, -, hsettled⟩ := bind_eq_ok.mp hsettled
    exact ⟨folder, result, styles, (pure_eq_ok.mp hsettled).symm⟩

theorem ConvertArgs.isChild_or_index (a : ConvertArgs) (c : Config) :
    (a.options c).isChild = true ∨ a.fileName = "index.html" := by
  by_cases h : a.fileName = "index.html"
  · exact .inr h
  · left
    rw [ConvertArgs.options]
    simp only [if_neg h]

/-- **No output after a failed run.** If a command ends with code 1, or with a failure that was not raised by
writing, all files and folders are as they were, wherever the run failed. -/
theorem failed_run_keeps_files :
    (∀ (a : FetchArgs) (c : Config) (env : Environment) (w w' : World) (r : Except Failure Nat),
      (fetchCommand a c env).run w = (r, w') →
      Failed ((a.plan c env w.talk).map writePlan) w.files r → w'.files = w.files) ∧
    (∀ (a : ConvertArgs) (c : Config) (w w' : World) (r : Except Failure Nat), w.files.IsTree →
      (convertCommand a c).run w = (r, w') →
      Failed (a.settled c w.files).toOption w.files r → w'.files = w.files) := by
  constructor
  · intro a c env w w' r hrun hfailed
    exact (fetchCommand_twoPhase hrun).files_eq hfailed fun _ _ _ _ htold => htold.elim
  · intro a c w w' r htree hrun hfailed
    refine (convertCommand_twoPhase hrun).files_eq hfailed fun m e hsettled hwrite hmissing => ?_
    obtain ⟨folder, result, styles, rfl⟩ := ConvertArgs.settled_eq hsettled
    exact Page.writeConversion_missing (a.isChild_or_index c) htree hwrite hmissing

/-! ### A fetch of which the last child is faulty -/

/-- A node as the service gives it. -/
def nodeData (id name kind : String) (fields : List (String × Json)) : Json :=
  .object ([("id", .string id), ("name", .string name), ("type", .string kind)] ++ fields)

/-- A response about some nodes. -/
def nodesResponse (nodes : List (String × Json)) : Response :=
  ⟨200, .json (.object [("nodes", .object (nodes.map fun (id, data) =>
    (id, .object [("document", data)])))])⟩

/-- A frame with a heading and a card. -/
def landingFrame : Json :=
  nodeData "1:1" "Landing" "FRAME" [("children", .array [
    nodeData "1:2" "Title" "TEXT" [("style", .object [("fontSize", .number (.int 32))])],
    nodeData "1:3" "Card" "COMPONENT" [("width", .number (.int 200))]])]

/-- The responses to a fetch of the frame, the last of them with the given card. -/
def landingResponses (card : Json) : List Response :=
  [⟨200, .json (.object [("document", .object [("children", .array [
      nodeData "0:1" "Design" "CANVAS" [("children", .array [landingFrame])]])])])⟩,
    nodesResponse [("1:1", landingFrame)],
    nodesResponse [
      ("1:2", nodeData "1:2" "Title" "TEXT" [("style", .object [("fontSize", .number (.int 32))])]),
      ("1:3", card)]]

/-- The world before a fetch of the frame. -/
def landingWorld (card : Json) : World :=
  ⟨.empty ["home"], ⟨"", ⟨[], landingResponses card⟩⟩⟩

/-- The arguments of a fetch of the frame. -/
def landingArgs : FetchArgs where
  fileKey := some "K"
  page := .text "Design"
  frame := .text "Landing"
  output := some "out"
  noChildren := false

/-- A configuration with a token. -/
def tokenConfig : Config :=
  [("figma", .object [("apiKey", .string "token")])]

/-- A card of which the width of the stroke is no number. -/
def faultyCard : Json :=
  nodeData "1:3" "Card" "COMPONENT" [("strokeWeight", .string "x")]

/-- The arguments of a conversion of a file that is not there. -/
def missingArgs : ConvertArgs where
  input := "missing.json"
  output := some "out"
  title := none
  outputFile := "index.html"
  instanceAsButton := false

/-- All three requests are answered, and the last child is faulty; and a file to convert is not there. -/
theorem faulty_landing_keeps_files :
    (∃ w', (fetchCommand landingArgs tokenConfig []).run (landingWorld faultyCard) = (.ok 1, w') ∧
      w'.talk.exchange.sent.length = 3 ∧ w'.files = (landingWorld faultyCard).files) ∧
    (landingWorld faultyCard).files.IsTree ∧
    ∃ w', (convertCommand missingArgs tokenConfig).run (landingWorld faultyCard) = (.ok 1, w') ∧
      w'.files = (landingWorld faultyCard).files := by
  have hfetch : ((fetchCommand landingArgs tokenConfig []).run
      (landingWorld faultyCard)).1.toOption = some 1 := by
    decide +kernel
  have hsent : ((fetchCommand landingArgs tokenConfig []).run
      (landingWorld faultyCard)).2.talk.exchange.sent.length = 3 := by
    decide +kernel
  have hconvert : ((convertCommand missingArgs tokenConfig).run
      (landingWorld faultyCard)).1.toOption = some 1 := by
    decide +kernel
  have htree : (landingWorld faultyCard).files.IsTree := Store.isTree_empty _
  refine ⟨⟨_, run_of_toOption hfetch, hsent, ?_⟩, htree, _, run_of_toOption hconvert, ?_⟩
  · exact failed_run_keeps_files.1 _ _ _ _ _ _ (run_of_toOption hfetch) (.inl rfl)
  · exact failed_run_keeps_files.2 _ _ _ _ _ htree (run_of_toOption hconvert) (.inl rfl)

end DesignMarkup
