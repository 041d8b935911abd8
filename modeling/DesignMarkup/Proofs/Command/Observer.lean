import DesignMarkup.Proofs.Command.Freshness
import DesignMarkup.Proofs.Trigger

/-!
# `Proofs.Command.Observer` — what becomes of the events of a watch

An event that is handled starts a run or changes nothing. An observer on a thread of its own keeps a failure of
such a run from the command and ends with it: the command sleeps on, and no event is handled any more. So an
observer that is alive in the end has handled every event it was told of.

## Contents

* `handleEvent_silent`, `handleEvent_fires`, `handleEvent_trigger`: an event that is handled;
* `Handled`, `handleEvent_handled`, `handled_of_tell`: **what is left by it**;
* `passMoment_cases`, `passAll_ended`, `alive_of_passAll`: moments with an observer and without;
* `passAll_apart`: **an observer apart never ends the command**.
-/

namespace DesignMarkup

/-! ## Events that are handled -/

section Handling

variable {t : Task} {e : Event} {x x' : Watching}

theorem run_within {α : Type} (m : Command α) (x : Watching) :
    (within m).run x = ((m.run x.world).1, { x with world := (m.run x.world).2 }) :=
  rfl

/-- A run that is told of changes files as the run does. -/
theorem run_sayThenTask (line : String) (t : Task) (w : World) :
    ∃ talk, (do talking (say line); runTask t : Command Unit).run w =
      (runTask t).run { w with talk := talk } := by
  obtain ⟨_, talk, htalk⟩ := run_talking_ok w (say_succeeds line)
  exact ⟨talk, run_bind_ok htalk⟩

/-- **The trigger hears of every event** that is handled, whatever becomes of the run. -/
theorem handleEvent_trigger (t : Task) (e : Event) (x : Watching) :
    ((handleEvent t e).run x).2.trigger =
      x.trigger.hear x.world.files.workingFolder ⟨x.clock, e⟩ := by
  rw [handleEvent, run_get_bind, Trigger.hear]
  dsimp only
  rcases x.trigger.fire? x.world.files.workingFolder x.clock e with _ | _ | _ <;> rfl

/-- An event that starts no run changes nothing. -/
theorem handleEvent_silent (h : x.trigger.fires x.world.files.workingFolder ⟨x.clock, e⟩ = false) :
    ((handleEvent t e).run x).2 = x := by
  rw [handleEvent, run_get_bind]
  split
  · rfl
  · rfl
  · next hfire =>
    have hfires : x.trigger.fires x.world.files.workingFolder ⟨x.clock, e⟩ = true :=
      Trigger.fires_iff.mpr ⟨_, _, hfire⟩
    exact absurd (hfires.symm.trans h) (by decide)

/-- An event that starts a run changes the world as the run does, and nothing else but the trigger. -/
theorem handleEvent_fires (h : x.trigger.fires x.world.files.workingFolder ⟨x.clock, e⟩ = true) :
    ∃ trigger talk, ((handleEvent t e).run x).2 =
      { x with trigger, world := ((runTask t).run { x.world with talk := talk }).2 } := by
  obtain ⟨path, trigger, hfire⟩ := Trigger.fires_iff.mp h
  obtain ⟨talk, htask⟩ := run_sayThenTask (Trigger.changeLine path) t x.world
  refine ⟨trigger, talk, ?_⟩
  rw [handleEvent, run_get_bind]
  simp only [hfire]
  rw [run_set_bind, run_within, htask]

theorem handleEvent_observer (t : Task) (e : Event) (x : Watching) :
    ((handleEvent t e).run x).2.observer = x.observer := by
  cases hfires : x.trigger.fires x.world.files.workingFolder ⟨x.clock, e⟩ with
  | false => rw [handleEvent_silent hfires]
  | true =>
    obtain ⟨trigger, talk, hrun⟩ := handleEvent_fires (t := t) hfires
    rw [hrun]

/-- **What becomes of an event that is handled**, whether or not its run fails. -/
structure Handled (t : Task) (e : Event) (x x' : Watching) : Prop where
  clock : x'.clock = x.clock
  trigger : x'.trigger = x.trigger.hear x.world.files.workingFolder ⟨x.clock, e⟩
  here : x'.world.files.workingFolder = x.world.files.workingFolder
  tree : x'.world.files.IsTree
  /-- A run leaves an output that is as fresh as it can be. -/
  fresh : x.trigger.fires x.world.files.workingFolder ⟨x.clock, e⟩ = true → t.Fresh x'.world.files
  /-- An output that is as fresh as it can be stays so, with a run or without one. -/
  keeps : t.Fresh x.world.files → t.Fresh x'.world.files

theorem handleEvent_handled (htree : x.world.files.IsTree) :
    Handled t e x ((handleEvent t e).run x).2 := by
  have htrigger := handleEvent_trigger t e x
  cases hfires : x.trigger.fires x.world.files.workingFolder ⟨x.clock, e⟩ with
  | false =>
    rw [handleEvent_silent hfires] at htrigger ⊢
    exact ⟨rfl, htrigger, rfl, htree, fun h => absurd (h.symm.trans hfires) (by decide), id⟩
  | true =>
    obtain ⟨trigger, talk, hrun⟩ := handleEvent_fires (t := t) hfires
    obtain ⟨htree', hpersists, hfresh⟩ :=
      fresh_after_runTask (t := t) (w := { x.world with talk := talk }) htree
    rw [hrun] at htrigger ⊢
    exact ⟨rfl, htrigger, hpersists.keeps.here, htree', fun _ => hfresh, fun _ => hfresh⟩

/-! ## The observer -/

theorem Observer.not_isAlive_iff {o : Observer} : o.isAlive = false ↔ ∃ f, o = .apart (some f) := by
  constructor
  · intro h
    cases o with
    | within => cases h
    | apart ended =>
      cases ended with
      | none => cases h
      | some f => exact ⟨f, rfl⟩
  · rintro ⟨f, rfl⟩
    rfl

/-- An observer that has ended handles no event. -/
theorem tell_ended (h : x.observer.isAlive = false) : (tell t e).run x = (.ok (), x) := by
  obtain ⟨f, hf⟩ := Observer.not_isAlive_iff.mp h
  rw [tell, run_get_bind]
  simp only [hf]
  rfl

/-- **An event has been handled** if it was told and the observer is alive after it. -/
theorem handled_of_tell (htree : x.world.files.IsTree) (hrun : (tell t e).run x = (.ok (), x'))
    (halive : x'.observer.isAlive = true) : Handled t e x x' := by
  -- the state after the handler, if it is what became of the command
  have hhandled : (handleEvent t e).run x = (.ok (), x') → Handled t e x x' := by
    intro h
    have hafter := handleEvent_handled (t := t) (e := e) htree
    rwa [h] at hafter
  rw [tell, run_get_bind] at hrun
  cases hobserver : x.observer with
  | within =>
    simp only [hobserver] at hrun
    exact hhandled hrun
  | apart ended =>
    cases ended with
    | none =>
      simp only [hobserver] at hrun
      obtain hok | ⟨f, y, -, hended⟩ := ok_of_run_tryCatch hrun
      · exact hhandled hok
      · obtain ⟨-, rfl⟩ := Prod.mk.inj
          (hended : ((.ok ⟨⟩ : Except Failure PUnit), { y with observer := .apart (some f) }) = (.ok _, x'))
        cases halive
    | some f =>
      simp only [hobserver] at hrun
      obtain ⟨-, rfl⟩ := Prod.mk.inj hrun
      rw [hobserver] at halive
      cases halive

/-- An observer apart keeps every failure to itself. -/
theorem tell_apart {ended : Option Failure} (h : x.observer = .apart ended) :
    ∃ x' ended', (tell t e).run x = (.ok (), x') ∧ x'.observer = .apart ended' := by
  cases ended with
  | some f => exact ⟨x, some f, tell_ended (by rw [h]; rfl), h⟩
  | none =>
    rw [tell, run_get_bind]
    simp only [h]
    rcases hrun : (handleEvent t e).run x with ⟨f | _, y⟩
    · exact ⟨_, some f, run_tryCatch_error hrun, rfl⟩
    · have hobserver := handleEvent_observer t e x
      rw [hrun] at hobserver
      exact ⟨y, none, run_tryCatch_ok hrun, hobserver.trans h⟩

end Handling

/-! ## From moment to moment -/

section Moments

variable {t : Task} {m : Moment} {moments : List Moment} {x x' : Watching}

/-- Without an observer that is alive a moment brings its files, and that is all. -/
theorem passMoment_ended (t : Task) (m : Moment) (h : x.observer.isAlive = false) :
    (passMoment t m).run x = (.ok (), (arrange m x).note (.slept 1)) := by
  rw [passMoment, run_modify_bind]
  cases m.event with
  | none => rfl
  | some e => exact run_bind_ok (tell_ended (x := arrange m x) h)

/-- **A moment passes**: its event is handled, if the observer is alive after it. -/
theorem passMoment_cases (htree : (arrange m x).world.files.IsTree)
    (hrun : (passMoment t m).run x = (.ok (), x')) (halive : x'.observer.isAlive = true) :
    (m.event = none ∧ x' = (arrange m x).note (.slept 1)) ∨
      ∃ e y, m.event = some e ∧ Handled t e (arrange m x) y ∧ x' = y.note (.slept 1) := by
  rw [passMoment, run_modify_bind] at hrun
  cases hevent : m.event with
  | none =>
    rw [hevent] at hrun
    exact .inl ⟨rfl, (Prod.mk.inj hrun).2.symm⟩
  | some e =>
    rw [hevent] at hrun
    obtain ⟨_, y, htell, hslept⟩ := ok_of_run_bind hrun
    obtain ⟨-, rfl⟩ := Prod.mk.inj
      (hslept : ((.ok ⟨⟩ : Except Failure PUnit), y.note (.slept 1)) = (.ok _, x'))
    exact .inr ⟨e, y, rfl, handled_of_tell htree htell halive, rfl⟩

/-- In the end a line is said and a signal is noted. -/
theorem run_passAll_nil (t : Task) (x : Watching) :
    ∃ talk, (passAll t []).run x =
      (.ok (), { x with world := { x.world with talk := talk } }.note .stop) := by
  obtain ⟨_, talk, htalk⟩ := run_talking_ok x.world (say_succeeds "\n👋 Stopping watch...")
  have hsay : (within (talking (say "\n👋 Stopping watch..."))).run x =
      (.ok (), { x with world := { x.world with talk := talk } }) := by
    rw [run_within, htalk]
  exact ⟨talk, run_bind_ok hsay⟩

/-- **After the observer has ended no event is handled**: the command goes on, and what the moments bring is all
that changes files. -/
theorem passAll_ended (t : Task) (moments : List Moment) (h : x.observer.isAlive = false) :
    ∃ x', (passAll t moments).run x = (.ok (), x') ∧ x'.observer = x.observer ∧
      x'.trigger = x.trigger ∧
      x'.world.files = moments.foldl (fun s m => m.bring s) x.world.files := by
  induction moments generalizing x with
  | nil =>
    obtain ⟨talk, hstop⟩ := run_passAll_nil t x
    exact ⟨_, hstop, rfl, rfl, rfl⟩
  | cons m rest ih =>
    obtain ⟨x', hrest, hobserver, htrigger, hfiles⟩ := ih (x := (arrange m x).note (.slept 1)) h
    exact ⟨x', (run_bind_ok (passMoment_ended t m h)).trans hrest, hobserver, htrigger, hfiles⟩

/-- An observer that is alive in the end was alive throughout. -/
theorem alive_of_passAll (hrun : (passAll t moments).run x = (.ok (), x'))
    (halive : x'.observer.isAlive = true) : x.observer.isAlive = true := by
  cases h : x.observer.isAlive with
  | true => rfl
  | false =>
    obtain ⟨y, hended, hobserver, -⟩ := passAll_ended t moments h
    obtain ⟨-, rfl⟩ := Prod.mk.inj (hrun.symm.trans hended)
    rw [hobserver] at halive
    exact h.symm.trans halive

/-- **An observer apart never ends the command**, whatever it meets. -/
theorem passAll_apart (t : Task) (moments : List Moment) {ended : Option Failure}
    (h : x.observer = .apart ended) : SucceedsFrom (passAll t moments) x := by
  induction moments generalizing x ended with
  | nil =>
    obtain ⟨talk, hstop⟩ := run_passAll_nil t x
    exact ⟨_, _, hstop⟩
  | cons m rest ih =>
    have hmoment : ∃ x' ended', (passMoment t m).run x = (.ok (), x') ∧ x'.observer = .apart ended' := by
      rw [passMoment, run_modify_bind]
      cases m.event with
      | none => exact ⟨_, ended, rfl, h⟩
      | some e =>
        obtain ⟨y, ended', htell, hy⟩ := tell_apart (t := t) (e := e) (x := arrange m x) h
        exact ⟨y.note (.slept 1), ended', run_bind_ok htell, hy⟩
    obtain ⟨y, ended', hfirst, hy⟩ := hmoment
    obtain ⟨u, x', hrest⟩ := ih hy
    exact ⟨u, x', (run_bind_ok hfirst).trans hrest⟩

end Moments

end DesignMarkup
