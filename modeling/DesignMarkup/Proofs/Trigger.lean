import DesignMarkup.Trigger
import DesignMarkup.Proofs.Outcome
import Mathlib.Data.List.Chain

/-!
# `Proofs.Trigger` — which events of a history start a run

A trigger changes only when it starts a run, and then only the time it keeps. So after any history its state
is told by the runs alone: the time is the reading of the last one. Whether the next event starts a run is
decided by the event, by its reading and by that time, and an event that starts none might as well not have
happened.

## Contents

* `Told`, `Trigger.fires`, `Trigger.hear`, `Trigger.after`, `Trigger.runs`: histories of events;
* `Event.Leaves`, `Event.Relevant`, `TooSoon`, `lastRun`: **which events count, and when**;
* `Trigger.fire?_eq_some_iff`, `Trigger.hear_eq`, `Trigger.fires_start_iff`: one event;
* `Trigger.after_eq`, `Trigger.chain_runs`, `Trigger.erase_silent`: a whole history;
* `Trigger.start_debounces`: **the runs of a trigger**.
-/

namespace DesignMarkup

/-! ## Histories -/

/-- An event that is told, with the reading of the clock. -/
structure Told where
  now : Number
  event : Event
  deriving DecidableEq

namespace Trigger

variable (folder : List String)

/-- A told event starts a run. -/
def fires (t : Trigger) (x : Told) : Bool :=
  match t.fire? folder x.now x.event with
  | .ok (some _) => true
  | _ => false

/-- The trigger after a told event. It stays as it is if no run is started, also when the time since the last
run cannot be computed. -/
def hear (t : Trigger) (x : Told) : Trigger :=
  match t.fire? folder x.now x.event with
  | .ok (some (_, t')) => t'
  | _ => t

/-- The trigger after a history. -/
def after (t : Trigger) (history : List Told) : Trigger :=
  history.foldl (hear folder) t

/-- **The events of a history that start a run**, in order. -/
def runs : Trigger → List Told → List Told
  | _, [] => []
  | t, x :: rest => (if t.fires folder x then [x] else []) ++ runs (t.hear folder x) rest

end Trigger

/-! ## What counts -/

/-- An event leaves new content in a file at a path: there it was changed or made, or it was moved there. -/
inductive Event.Leaves : Event → String → Prop
  | modified (source : String) : Leaves ⟨.modified, source, false⟩ source
  | created (source : String) : Leaves ⟨.created, source, false⟩ source
  | moved (source destination : String) : Leaves ⟨.moved destination, source, false⟩ destination

/-- **An event is relevant** if it leaves new content in a JSON file, which is the target if one is set. -/
def Event.Relevant (folder : List String) (target : Option String) (e : Event) : Prop :=
  ∃ path, e.Leaves path ∧ ".json".toList <:+ path.toList ∧
    ∀ file ∈ target, file ≠ "" → Place.ofText folder path = Place.ofText folder file

/-- The time between two readings is shorter than a pause. -/
def TooSoon (pause last now : Number) : Prop :=
  ∃ since, now.sub last = .ok since ∧ since.lt pause = true

/-- The reading at the last of some runs, zero before the first. -/
def lastRun (runs : List Told) : Number :=
  (runs.map Told.now).getLastD zeroTime

theorem Event.path?_eq_some_iff {e : Event} {path : String} : e.path? = some path ↔ e.Leaves path := by
  constructor
  · intro h
    obtain ⟨change, source, isFolder⟩ := e
    cases isFolder with
    | true => cases h
    | false =>
      cases change with
      | modified =>
        obtain rfl := Option.some.inj h
        exact .modified source
      | created =>
        obtain rfl := Option.some.inj h
        exact .created source
      | moved destination =>
        obtain rfl := Option.some.inj h
        exact .moved source destination
      | deleted => cases h
  · rintro (source | source | ⟨source, destination⟩) <;> rfl

namespace Trigger

variable {folder : List String} {t t' : Trigger}

/-! ## One event -/

theorem isTooSoon_eq_ok_iff {now : Number} {soon : Bool} :
    t.isTooSoon now = .ok soon ↔ ∃ since, now.sub t.last = .ok since ∧ since.lt t.pause = soon := by
  rw [isTooSoon, bind_eq_ok]
  simp only [pure_eq_ok]

/-- **A trigger starts a run** at the path where an event leaves new content, if it listens to changes there and
the event does not come too soon. Nothing of it changes but the time. -/
theorem fire?_eq_some_iff {now : Number} {e : Event} {path : String} :
    t.fire? folder now e = .ok (some (path, t')) ↔
      e.Leaves path ∧ t.concerns folder path = true ∧ t.isTooSoon now = .ok false ∧
        t' = { t with last := now } := by
  rw [fire?, ← Event.path?_eq_some_iff]
  cases e.path? with
  | none => simp
  | some p =>
    dsimp only
    by_cases hp : t.concerns folder p = true
    · rw [if_pos hp, bind_eq_ok]
      constructor
      · rintro ⟨soon, hsoon, h⟩
        cases soon with
        | true => cases Except.ok.inj h
        | false =>
          obtain ⟨rfl, rfl⟩ := Prod.mk.inj (Option.some.inj (Except.ok.inj h))
          exact ⟨rfl, hp, hsoon, rfl⟩
      · rintro ⟨hpath, -, hsoon, rfl⟩
        obtain rfl := Option.some.inj hpath
        exact ⟨false, hsoon, rfl⟩
    · rw [if_neg hp]
      constructor
      · intro h
        cases Except.ok.inj h
      · rintro ⟨hpath, hconcerns, -⟩
        obtain rfl := Option.some.inj hpath
        exact absurd hconcerns hp

theorem fires_iff {x : Told} :
    t.fires folder x = true ↔ ∃ path t', t.fire? folder x.now x.event = .ok (some (path, t')) := by
  rw [fires]
  split
  · next fired h => exact iff_of_true rfl ⟨fired.1, fired.2, h⟩
  · next h => exact iff_of_false (by decide) fun ⟨path, t', hfire⟩ => h _ hfire

/-- **What one event changes.** -/
theorem hear_eq (t : Trigger) (x : Told) :
    t.hear folder x = if t.fires folder x then { t with last := x.now } else t := by
  rw [hear]
  split
  · next path t' h =>
    rw [if_pos (fires_iff.mpr ⟨path, t', h⟩)]
    exact (fire?_eq_some_iff.mp h).2.2.2
  · next h =>
    rw [if_neg]
    intro hfires
    obtain ⟨path, t', hfire⟩ := fires_iff.mp hfires
    exact h _ _ hfire

/-- An event starts a run if the trigger listens to changes where it leaves new content, and it does not come
too soon. -/
theorem fires_iff_due {x : Told} :
    t.fires folder x = true ↔
      (∃ path, x.event.Leaves path ∧ t.concerns folder path = true) ∧
        Succeeds (x.now.sub t.last) ∧ ¬TooSoon t.pause t.last x.now := by
  rw [fires_iff]
  simp only [fire?_eq_some_iff, isTooSoon_eq_ok_iff, TooSoon]
  constructor
  · rintro ⟨path, -, hleaves, hconcerns, ⟨since, hsince, hlt⟩, -⟩
    refine ⟨⟨path, hleaves, hconcerns⟩, ⟨since, hsince⟩, ?_⟩
    rintro ⟨since', hsince', hlt'⟩
    obtain rfl := Except.ok.inj (hsince.symm.trans hsince')
    exact absurd hlt' (by rw [hlt]; decide)
  · rintro ⟨⟨path, hleaves, hconcerns⟩, ⟨since, hsince⟩, hlate⟩
    have hlt : since.lt t.pause = false := Bool.eq_false_iff.mpr fun h => hlate ⟨since, hsince, h⟩
    exact ⟨path, _, hleaves, hconcerns, ⟨since, hsince, hlt⟩, rfl⟩

/-- What a trigger listens to from the start. -/
theorem concerns_start_iff {target : Option String} {pause : Number} {path : String} :
    (start folder target pause).concerns folder path = true ↔
      ".json".toList <:+ path.toList ∧
        ∀ file ∈ target, file ≠ "" → Place.ofText folder path = Place.ofText folder file := by
  rw [concerns, Bool.and_eq_true, isJsonPath, List.isSuffixOf_iff_suffix, start]
  refine and_congr_right fun _ => ?_
  cases target with
  | none => exact iff_of_true rfl fun file hfile => absurd hfile (Option.not_mem_none file)
  | some file =>
    by_cases hfile : file = ""
    · have hnone : (some file).filter (· != "") = none := Option.filter_some_neg (by simp [hfile])
      rw [hnone]
      exact iff_of_true rfl fun f hf hne => absurd ((Option.some.inj hf).symm.trans hfile) hne
    · have hsome : (some file).filter (· != "") = some file := Option.filter_some_pos (by simp [hfile])
      rw [hsome, Option.map_some, Option.all_some, beq_iff_eq]
      constructor
      · intro heq f hf _
        rw [← heq, Option.some.inj hf]
      · exact fun h => (h file rfl hfile).symm

/-! ## A whole history -/

/-- **The trigger after a history** keeps the reading of the last run. -/
theorem after_eq (t : Trigger) (history : List Told) :
    t.after folder history =
      { t with last := ((t.runs folder history).map Told.now).getLastD t.last } := by
  induction history generalizing t with
  | nil => rfl
  | cons x rest ih =>
    have hrest : t.after folder (x :: rest) = (t.hear folder x).after folder rest := rfl
    rw [hrest, ih, runs, hear_eq]
    -- if this event starts a run, it is the last one unless there are others behind it
    split
    · rw [List.singleton_append, List.map_cons, List.getLastD_cons]
    · rfl

/-- What a trigger listens to is not changed by its runs. -/
theorem concerns_after (t : Trigger) (history : List Told) (path : String) :
    (t.after folder history).concerns folder path = t.concerns folder path := by
  rw [after_eq]
  rfl

theorem after_append (t : Trigger) (before after : List Told) :
    t.after folder (before ++ after) = (t.after folder before).after folder after :=
  List.foldl_append

/-- The runs of a history are those of its first part, and those of the trigger after it. -/
theorem runs_append (t : Trigger) (before after : List Told) :
    t.runs folder (before ++ after) =
      t.runs folder before ++ (t.after folder before).runs folder after := by
  induction before generalizing t with
  | nil => rfl
  | cons x rest ih =>
    rw [List.cons_append, runs, ih, runs, List.append_assoc]
    rfl

theorem runs_sublist (t : Trigger) (history : List Told) : (t.runs folder history).Sublist history := by
  induction history generalizing t with
  | nil => exact List.Sublist.slnil
  | cons x rest ih =>
    rw [runs]
    split
    · exact (ih _).cons_cons x
    · exact (ih _).cons x

/-- **No run comes too soon after the one before.** -/
theorem chain_runs (t : Trigger) (history : List Told) :
    List.IsChain (fun previous now => ¬TooSoon t.pause previous now)
      (t.last :: (t.runs folder history).map Told.now) := by
  induction history generalizing t with
  | nil => exact List.isChain_singleton t.last
  | cons x rest ih =>
    have hchain := ih (t.hear folder x)
    rw [runs]
    rw [hear_eq] at hchain ⊢
    split
    · next hfires =>
      rw [if_pos hfires] at hchain
      exact List.isChain_cons_cons.mpr ⟨(fires_iff_due.mp hfires).2.2, hchain⟩
    · next hfires =>
      rw [if_neg hfires] at hchain
      exact hchain

/-- **An event that starts no run might as well not have happened.** -/
theorem erase_silent {before after : List Told} {x : Told}
    (h : (t.after folder before).fires folder x = false) :
    t.runs folder (before ++ x :: after) = t.runs folder (before ++ after) ∧
    t.after folder (before ++ x :: after) = t.after folder (before ++ after) := by
  have hsame : (t.after folder before).hear folder x = t.after folder before := by
    rw [hear_eq, h]
    rfl
  constructor
  · rw [runs_append, runs_append, runs, h, hsame]
    rfl
  · have hcons : (t.after folder before).after folder (x :: after) =
        ((t.after folder before).hear folder x).after folder after := rfl
    rw [after_append, after_append, hcons, hsame]

/-! ## From the start -/

/-- If the clock shows doubles, the time since the last run can be computed. -/
theorem succeeds_sub_lastRun {runs : List Told} {now : Number} (hnow : ∃ d, now = .double d)
    (h : ∀ y ∈ runs, ∃ d, y.now = .double d) : Succeeds (now.sub (lastRun runs)) := by
  have hreadings : ∀ n ∈ zeroTime :: runs.map Told.now, ∃ d, n = .double d :=
    List.forall_mem_cons.mpr ⟨⟨_, rfl⟩, List.forall_mem_map.mpr h⟩
  obtain ⟨a, rfl⟩ := hnow
  obtain ⟨b, hb⟩ := hreadings _ List.getLastD_mem_cons
  rw [lastRun, hb]
  exact ⟨_, rfl⟩

/-- **When an event starts a run**, after any history. -/
theorem fires_start_iff {target : Option String} {pause : Number} {before : List Told} {x : Told} :
    ((start folder target pause).after folder before).fires folder x = true ↔
      x.event.Relevant folder target ∧
        Succeeds (x.now.sub (lastRun ((start folder target pause).runs folder before))) ∧
        ¬TooSoon pause (lastRun ((start folder target pause).runs folder before)) x.now := by
  rw [fires_iff_due]
  simp only [concerns_after, concerns_start_iff]
  rw [after_eq]
  rfl

/-- **The runs of a trigger.** After any history the trigger keeps the reading at the last run, which is zero
before the first. The next event starts a run if and only if it is relevant and the time since then, which there
is if the clock shows doubles, is not shorter than the pause. No run comes too soon after the one before, and an
event that starts none can be taken out of the history: the runs and the trigger in the end stay the same. -/
theorem start_debounces (folder : List String) (target : Option String) (pause : Number)
    (before after : List Told) (x : Told) :
    let t := start folder target pause
    let last := lastRun (t.runs folder before)
    (t.after folder before).last = last ∧
    ((t.after folder before).fires folder x = true ↔
      x.event.Relevant folder target ∧ Succeeds (x.now.sub last) ∧ ¬TooSoon pause last x.now) ∧
    ((∀ y ∈ x :: before, ∃ d, y.now = .double d) → Succeeds (x.now.sub last)) ∧
    List.IsChain (fun previous now => ¬TooSoon pause previous now)
      (zeroTime :: (t.runs folder before).map Told.now) ∧
    ((t.after folder before).fires folder x = false →
      t.runs folder (before ++ x :: after) = t.runs folder (before ++ after) ∧
      t.after folder (before ++ x :: after) = t.after folder (before ++ after)) := by
  intro t last
  refine ⟨congrArg Trigger.last (after_eq t before), fires_start_iff, fun h => ?_, chain_runs t before,
    erase_silent⟩
  obtain ⟨hx, hbefore⟩ := List.forall_mem_cons.mp h
  exact succeeds_sub_lastRun hx fun y hy => hbefore y ((runs_sublist t before).subset hy)

/-- A trigger for one file, with half a second between its runs. -/
def frameTrigger : Trigger :=
  start ["designs"] (some "frame.json") (.double (.round false 1 2))

/-- A change of the file that the trigger listens to, at some quarters of a second. -/
def savedAt (quarters : Nat) (change : Change) (source : String) : Told :=
  ⟨.double (.round false quarters 4), ⟨change, source, false⟩⟩

/-- Three changes of the file, a quarter of a second apart. -/
def burst : List Told :=
  [savedAt 400 .modified "frame.json", savedAt 401 .created "/designs/frame.json",
   savedAt 402 (.moved "./frame.json") ".frame.json.swp"]

theorem burst_debounced :
    frameTrigger.runs ["designs"] burst = [burst[0], burst[2]] ∧
    Succeeds (burst[1].now.sub (lastRun (frameTrigger.runs ["designs"] [burst[0]]))) ∧
    frameTrigger.runs ["designs"] burst = frameTrigger.runs ["designs"] [burst[0], burst[2]] ∧
    frameTrigger.after ["designs"] burst = frameTrigger.after ["designs"] [burst[0], burst[2]] := by
  have hsilent : (frameTrigger.after ["designs"] [burst[0]]).fires ["designs"] burst[1] = false := by
    decide +kernel
  have hdoubles : ∀ y ∈ [burst[1], burst[0]], ∃ d, y.now = .double d :=
    List.forall_mem_cons.mpr ⟨⟨_, rfl⟩, List.forall_mem_singleton.mpr ⟨_, rfl⟩⟩
  obtain ⟨-, -, hcomputed, -, herase⟩ := start_debounces ["designs"] (some "frame.json")
    (.double (.round false 1 2)) [burst[0]] [burst[2]] burst[1]
  exact ⟨by decide +kernel, hcomputed hdoubles, herase hsilent⟩

end Trigger

end DesignMarkup
