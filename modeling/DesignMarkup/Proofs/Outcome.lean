import Mathlib.Data.List.Forall2

/-!
# `Proofs.Outcome` — computations that may fail

Two kinds of failing computations run through the program: plain ones, and ones on a state that outlives
the failure. A success of a sequence comes apart into successes of its parts, and a failure of a part is
the failure of the whole, with the state as the part left it.

## Contents

* `bind_eq_ok`, `pure_eq_ok`, `mapError_eq_ok`: plain computations;
* `Succeeds`, `succeeds_bind_iff`, `succeeds_mapM_iff`, `forall₂_of_mapM_ok`: whether they succeed;
* `run_bind_ok`, `run_bind_error`, `ok_of_run_bind`, `error_of_run_bind`: computations on a state;
* `run_of_discard`, `bind_of_discard`: computations that differ in their results at most;
* `run_get_bind`, `run_set_bind`, `run_modify_bind`: a first step on the state;
* `run_tryCatch_ok`, `run_tryCatch_error`, `ok_of_run_tryCatch`: handlers;
* `SucceedsFrom`, `not_succeedsFrom_iff`, `succeedsFrom_bind_iff`, `run_of_toOption`: whether they succeed.
-/

namespace DesignMarkup

/-! ## Plain computations -/

section Plain

variable {ε α β : Type}

/-- A sequence succeeds if both of its parts do. -/
theorem bind_eq_ok {x : Except ε α} {f : α → Except ε β} {b : β} :
    (x >>= f) = .ok b ↔ ∃ a, x = .ok a ∧ f a = .ok b := by
  constructor
  · intro h
    cases x with
    | error e => cases h
    | ok a => exact ⟨a, rfl, h⟩
  · rintro ⟨a, rfl, h⟩
    exact h

theorem ok_bind (a : α) (f : α → Except ε β) : (.ok a >>= f) = f a :=
  rfl

theorem pure_eq_ok {a b : α} : (pure a : Except ε α) = .ok b ↔ a = b :=
  ⟨Except.ok.inj, congrArg _⟩

/-- Wrapping the failures changes no success. -/
theorem mapError_eq_ok {ε' : Type} {g : ε → ε'} {x : Except ε α} {a : α} :
    x.mapError g = .ok a ↔ x = .ok a := by
  cases x with
  | error e =>
    constructor
    · intro h; cases h
    · intro h; cases h
  | ok b => exact ⟨fun h => congrArg _ (Except.ok.inj h), fun h => congrArg _ (Except.ok.inj h)⟩

/-! ## Success -/

/-- The computation succeeds. -/
def Succeeds (x : Except ε α) : Prop :=
  ∃ a, x = .ok a

theorem succeeds_ok (a : α) : Succeeds (.ok a : Except ε α) :=
  ⟨a, rfl⟩

theorem not_succeeds_error (e : ε) : ¬Succeeds (.error e : Except ε α) := by
  rintro ⟨a, ha⟩
  cases ha

/-- **A sequence succeeds** if its first part does and the second does after it. -/
theorem succeeds_bind_iff {x : Except ε α} {f : α → Except ε β} {rest : Prop}
    (h : ∀ a, x = .ok a → (Succeeds (f a) ↔ rest)) : Succeeds (x >>= f) ↔ Succeeds x ∧ rest := by
  constructor
  · rintro ⟨b, hb⟩
    obtain ⟨a, ha, hb⟩ := bind_eq_ok.mp hb
    exact ⟨⟨a, ha⟩, (h a ha).mp ⟨b, hb⟩⟩
  · rintro ⟨⟨a, ha⟩, hrest⟩
    obtain ⟨b, hb⟩ := (h a ha).mpr hrest
    exact ⟨b, bind_eq_ok.mpr ⟨a, ha, hb⟩⟩

/-- Nothing is added by a second part that never fails. -/
theorem succeeds_bind_of_succeeds {x : Except ε α} {f : α → Except ε β} (h : ∀ a, Succeeds (f a)) :
    Succeeds (x >>= f) ↔ Succeeds x :=
  (succeeds_bind_iff fun a _ => iff_of_true (h a) trivial).trans (and_iff_left trivial)

theorem succeeds_bind_pure_iff {x : Except ε α} {f : α → β} :
    Succeeds (x >>= fun a => pure (f a)) ↔ Succeeds x :=
  succeeds_bind_of_succeeds fun a => succeeds_ok (f a)

theorem succeeds_map_iff {x : Except ε α} {f : α → β} : Succeeds (f <$> x) ↔ Succeeds x := by
  rw [map_eq_pure_bind]
  exact succeeds_bind_pure_iff

theorem succeeds_mapError_iff {ε' : Type} {g : ε → ε'} {x : Except ε α} :
    Succeeds (x.mapError g) ↔ Succeeds x :=
  exists_congr fun _ => mapError_eq_ok

/-- A list of computations succeeds exactly if each of them does. -/
theorem succeeds_mapM_iff {f : α → Except ε β} {as : List α} :
    Succeeds (as.mapM f) ↔ ∀ a ∈ as, Succeeds (f a) := by
  induction as with
  | nil => exact iff_of_true (succeeds_ok []) fun a ha => absurd ha List.not_mem_nil
  | cons a as ih =>
    rw [List.mapM_cons, succeeds_bind_iff fun b _ => succeeds_bind_pure_iff, ih, List.forall_mem_cons]

/-- What a list of computations yields is yielded by each of them in turn. -/
theorem forall₂_of_mapM_ok {f : α → Except ε β} {as : List α} {bs : List β} (h : as.mapM f = .ok bs) :
    List.Forall₂ (fun a b => f a = .ok b) as bs := by
  induction as generalizing bs with
  | nil =>
    rw [← Except.ok.inj h]
    exact .nil
  | cons a as ih =>
    rw [List.mapM_cons] at h
    obtain ⟨b, hb, h⟩ := bind_eq_ok.mp h
    obtain ⟨bs', hbs, h⟩ := bind_eq_ok.mp h
    rw [← pure_eq_ok.mp h]
    exact .cons hb (ih hbs)

end Plain

/-! ## Computations on a state -/

section Stateful

variable {ε σ α β : Type} {x : ExceptT ε (StateM σ) α} {f : α → ExceptT ε (StateM σ) β}

/-- After a success the rest of a sequence runs on the state that was reached. -/
theorem run_bind_ok {s s' : σ} {a : α} (h : x.run s = (.ok a, s')) :
    (x >>= f).run s = (f a).run s' := by
  show (match x.run s with | (r, s₁) => (ExceptT.bindCont f r : StateM σ (Except ε β)) s₁) = _
  rw [h]
  rfl

/-- After a failure nothing more is run. -/
theorem run_bind_error {s s' : σ} {e : ε} (h : x.run s = (.error e, s')) :
    (x >>= f).run s = (.error e, s') := by
  show (match x.run s with | (r, s₁) => (ExceptT.bindCont f r : StateM σ (Except ε β)) s₁) = _
  rw [h]
  rfl

/-- A sequence succeeds only through a success of its first part. -/
theorem ok_of_run_bind {s s'' : σ} {b : β} (h : (x >>= f).run s = (.ok b, s'')) :
    ∃ a s', x.run s = (.ok a, s') ∧ (f a).run s' = (.ok b, s'') := by
  rcases hx : x.run s with ⟨r, s'⟩
  cases r with
  | error e =>
    rw [run_bind_error hx] at h
    cases h
  | ok a => exact ⟨a, s', rfl, (run_bind_ok hx).symm.trans h⟩

/-- A sequence fails through a failure of its first part, or of what comes after it. -/
theorem error_of_run_bind {s s'' : σ} {e : ε} (h : (x >>= f).run s = (.error e, s'')) :
    x.run s = (.error e, s'') ∨
      ∃ a s', x.run s = (.ok a, s') ∧ (f a).run s' = (.error e, s'') := by
  rcases hx : x.run s with ⟨r, s'⟩
  cases r with
  | error e' =>
    rw [run_bind_error hx] at h
    obtain ⟨he, rfl⟩ := Prod.mk.inj h
    obtain rfl := Except.error.inj he
    exact .inl rfl
  | ok a => exact .inr ⟨a, s', rfl, (run_bind_ok hx).symm.trans h⟩

/-- A function on the results changes no state. -/
theorem run_map (g : α → β) (s : σ) : (g <$> x).run s = ((x.run s).1.map g, (x.run s).2) := by
  rw [map_eq_pure_bind]
  rcases hx : x.run s with ⟨e | a, s'⟩
  · exact run_bind_error hx
  · exact run_bind_ok hx

/-- **Computations that are equal without their results** reach the same state, and either both fail, with the
same failure, or both succeed. -/
theorem run_of_discard {y : ExceptT ε (StateM σ) β}
    (h : (fun _ => ()) <$> x = (fun _ => ()) <$> y) (s : σ) :
    (x.run s).1.map (fun _ => ()) = (y.run s).1.map (fun _ => ()) ∧ (x.run s).2 = (y.run s).2 := by
  have hrun := congrArg (fun z : ExceptT ε (StateM σ) Unit => z.run s) h
  simp only [run_map] at hrun
  exact Prod.mk.inj hrun

/-- They are interchangeable before what does not look at a result. -/
theorem bind_of_discard {γ : Type} {y : ExceptT ε (StateM σ) β}
    (h : (fun _ => ()) <$> x = (fun _ => ()) <$> y) (z : ExceptT ε (StateM σ) γ) :
    (x >>= fun _ => z) = (y >>= fun _ => z) := by
  have hbind := congrArg (fun m : ExceptT ε (StateM σ) Unit => m >>= fun _ => z) h
  simpa only [bind_map_left] using hbind

theorem run_ok_of_discard {y : ExceptT ε (StateM σ) β}
    (h : (fun _ => ()) <$> x = (fun _ => ()) <$> y) {s s' : σ} {a : α} (hx : x.run s = (.ok a, s')) :
    ∃ b, y.run s = (.ok b, s') := by
  have hrun := run_of_discard h s
  rcases hy : y.run s with ⟨e | b, s₁⟩
  · rw [hx, hy] at hrun
    cases hrun.1
  · rw [hx, hy] at hrun
    exact ⟨b, congrArg _ hrun.2.symm⟩

/-- A look at the state goes on with it; a change of the state goes on from it. -/
theorem run_get_bind (f : σ → ExceptT ε (StateM σ) β) (s : σ) :
    ((get : ExceptT ε (StateM σ) σ) >>= f).run s = (f s).run s :=
  rfl

theorem run_set_bind (f : PUnit → ExceptT ε (StateM σ) β) (s s' : σ) :
    ((set s' : ExceptT ε (StateM σ) PUnit) >>= f).run s = (f ⟨⟩).run s' :=
  rfl

theorem run_modify_bind (f : PUnit → ExceptT ε (StateM σ) β) (g : σ → σ) (s : σ) :
    ((modify g : ExceptT ε (StateM σ) PUnit) >>= f).run s = (f ⟨⟩).run (g s) :=
  rfl

/-- What follows a result under a handler. -/
def caught (handle : ε → ExceptT ε (StateM σ) α) : Except ε α → StateM σ (Except ε α)
  | .ok a => pure (.ok a)
  | .error e => (handle e).run

/-- After a success there is nothing to catch. -/
theorem run_tryCatch_ok {handle : ε → ExceptT ε (StateM σ) α} {s s' : σ} {a : α}
    (h : x.run s = (.ok a, s')) : (tryCatch x handle).run s = (.ok a, s') := by
  show (match x.run s with | (r, s₁) => (caught handle r) s₁) = _
  rw [h]
  rfl

/-- A failure is handled on the state that it left. -/
theorem run_tryCatch_error {handle : ε → ExceptT ε (StateM σ) α} {s s' : σ} {e : ε}
    (h : x.run s = (.error e, s')) : (tryCatch x handle).run s = (handle e).run s' := by
  show (match x.run s with | (r, s₁) => (caught handle r) s₁) = _
  rw [h]
  rfl

/-- A success under a handler comes from the computation or from the handler. -/
theorem ok_of_run_tryCatch {handle : ε → ExceptT ε (StateM σ) α} {s s'' : σ} {a : α}
    (h : (tryCatch x handle).run s = (.ok a, s'')) :
    x.run s = (.ok a, s'') ∨
      ∃ e s', x.run s = (.error e, s') ∧ (handle e).run s' = (.ok a, s'') := by
  rcases hx : x.run s with ⟨r, s'⟩
  cases r with
  | error e => exact .inr ⟨e, s', rfl, (run_tryCatch_error hx).symm.trans h⟩
  | ok b =>
    rw [run_tryCatch_ok hx] at h
    exact .inl h

/-- The computation succeeds from a state. -/
def SucceedsFrom (x : ExceptT ε (StateM σ) α) (s : σ) : Prop :=
  ∃ a s', x.run s = (.ok a, s')

instance (s : σ) : Decidable (SucceedsFrom x s) :=
  match h : x.run s with
  | (.ok a, s') => isTrue ⟨a, s', h⟩
  | (.error _, _) => isFalse fun ⟨_, _, h'⟩ => by cases h.symm.trans h'

/-- A computation that does not succeed fails. -/
theorem not_succeedsFrom_iff {s : σ} :
    ¬SucceedsFrom x s ↔ ∃ e s', x.run s = (.error e, s') := by
  rcases hx : x.run s with ⟨r, s'⟩
  cases r with
  | error e => exact iff_of_true (by rintro ⟨a, s'', ha⟩; cases hx.symm.trans ha) ⟨e, s', rfl⟩
  | ok a => exact iff_of_false (not_not_intro ⟨a, s', hx⟩) (by rintro ⟨e, s'', he⟩; cases he)

theorem succeedsFrom_iff_of_run {s s' : σ} {r : Except ε α} (h : x.run s = (r, s')) :
    SucceedsFrom x s ↔ Succeeds r := by
  constructor
  · rintro ⟨a, s'', ha⟩
    exact ⟨a, (Prod.mk.inj (h.symm.trans ha)).1⟩
  · rintro ⟨a, rfl⟩
    exact ⟨a, s', h⟩

/-- **A sequence succeeds from a state** if its first part does and the second does after it. -/
theorem succeedsFrom_bind_iff {s : σ} {rest : Prop}
    (h : ∀ a s', x.run s = (.ok a, s') → (SucceedsFrom (f a) s' ↔ rest)) :
    SucceedsFrom (x >>= f) s ↔ SucceedsFrom x s ∧ rest := by
  constructor
  · rintro ⟨b, s'', hb⟩
    obtain ⟨a, s', ha, hb⟩ := ok_of_run_bind hb
    exact ⟨⟨a, s', ha⟩, (h a s' ha).mp ⟨b, s'', hb⟩⟩
  · rintro ⟨⟨a, s', ha⟩, hrest⟩
    obtain ⟨b, s'', hb⟩ := (h a s' ha).mpr hrest
    exact ⟨b, s'', (run_bind_ok ha).trans hb⟩

theorem succeedsFrom_bind {s : σ} (hx : SucceedsFrom x s) (hf : ∀ a s', SucceedsFrom (f a) s') :
    SucceedsFrom (x >>= f) s :=
  (succeedsFrom_bind_iff fun a s' _ => iff_of_true (hf a s') trivial).mpr ⟨hx, trivial⟩

theorem succeedsFrom_bind_of_succeeds {s : σ} (h : ∀ a s', SucceedsFrom (f a) s') :
    SucceedsFrom (x >>= f) s ↔ SucceedsFrom x s :=
  (succeedsFrom_bind_iff fun a s' _ => iff_of_true (h a s') trivial).trans (and_iff_left trivial)

theorem succeedsFrom_pure (a : α) (s : σ) : SucceedsFrom (pure a : ExceptT ε (StateM σ) α) s :=
  ⟨a, s, rfl⟩

/-- A run that is known by its success is known up to the state that it reaches. -/
theorem run_of_toOption {s : σ} {a : α} (h : (x.run s).1.toOption = some a) :
    x.run s = (.ok a, (x.run s).2) := by
  rcases hx : x.run s with ⟨r, s'⟩
  rw [hx] at h
  cases r with
  | error e => cases h
  | ok b =>
    obtain rfl := Option.some.inj h
    rfl

end Stateful

end DesignMarkup
