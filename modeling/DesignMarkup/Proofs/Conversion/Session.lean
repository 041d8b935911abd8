import DesignMarkup.Proofs.Conversion.Journal
import DesignMarkup.Proofs.Style.Table
import Mathlib.Data.List.Forall2
import Mathlib.Data.List.Induction
import Mathlib.Data.List.Nodup

/-!
# `Proofs.Conversion.Session` — class names in a shared context

A session is any sequence of steps on one context, of which some may fail: names minted directly, whole
designs converted, single nodes written. The journal of a session is **sound**: its names carry the
numbers from one upwards, the counter is their count, and the rules of the stylesheet stand under some
of them, in the order in which they were minted. Entering a layer preserves that whether or not it
succeeds, so everything does.

## Contents

* `Journal.Sound`: the invariant; `sound_enter`: **entering a layer preserves it**;
* `Step`, `Step.after`, `Step.noted`: the steps of a session;
* `sessionContext`, `sessionJournal`: whole sessions; `session_keeps`: **what they preserve**;
* `session_names`: **the names of a session**.
-/

namespace DesignMarkup

/-! ## The invariant -/

/-- What holds of a journal throughout. -/
structure Journal.Sound (j : Journal) : Prop where
  /-- The counter is the number of names minted. -/
  counter : j.context.counter = j.minted.length
  /-- The names carry the numbers from one upwards. -/
  numbered : ∀ k name, j.minted[k]? = some name → Numbered (k + 1) name
  /-- The rules stand under names that were minted, in that order. -/
  names : j.context.styles.names.Sublist j.minted

theorem sound_start : Journal.start.Sound :=
  ⟨rfl, fun k name h => absurd h (by simp [Journal.start]), List.Sublist.refl _⟩

namespace Journal.Sound

variable {j : Journal}

/-- A name that is minted next carries the next number, and so do all names with it. -/
theorem numbered_append (h : j.Sound) {name : String} (hn : Numbered (j.context.counter + 1) name)
    (k : Nat) (other : String) (hk : (j.minted ++ [name])[k]? = some other) :
    Numbered (k + 1) other := by
  -- either the name was there before, or it is the new one, whose place is the counter
  rw [List.getElem?_append] at hk
  split at hk
  · exact h.numbered k other hk
  · next hlen =>
    obtain ⟨hlt, he⟩ := List.getElem?_eq_some_iff.mp hk
    have hzero : k - j.minted.length = 0 := by simpa using hlt
    have hlast : k = j.context.counter := by rw [h.counter]; omega
    simp only [hzero, List.getElem_cons_zero] at he
    rw [← he, hlast]
    exact hn

/-- No rule has the next number yet. -/
theorem not_mem_names (h : j.Sound) {name : String} (hn : Numbered (j.context.counter + 1) name) :
    name ∉ j.context.styles.names := by
  intro hm
  obtain ⟨k, hk⟩ := List.mem_iff_getElem?.mp (h.names.subset hm)
  have hlt : k < j.minted.length := (List.getElem?_eq_some_iff.mp hk).1
  have he := hn.unique (h.numbered k name hk)
  rw [h.counter] at he
  omega

/-- A minted name keeps a journal sound. -/
theorem mint (h : j.Sound) {name : String} (hn : Numbered (j.context.counter + 1) name) :
    (⟨j.context.count, j.minted ++ [name]⟩ : Journal).Sound where
  counter := by rw [List.length_append, List.length_singleton, Context.count_counter, h.counter]
  numbered := h.numbered_append hn
  names := h.names.trans (List.sublist_append_left _ _)

/-- So does a minted name under which declarations are recorded. -/
theorem record (h : j.Sound) {name : String} (hn : Numbered (j.context.counter + 1) name)
    (d : Declarations) : (⟨j.context.count.record name d, j.minted ++ [name]⟩ : Journal).Sound where
  counter := (h.mint hn).counter
  numbered := h.numbered_append hn
  names := by
    rw [Context.record_styles, Context.count_styles, StyleTable.names_record (h.not_mem_names hn)]
    refine h.names.append ?_
    split
    · exact List.nil_sublist _
    · exact List.Sublist.refl _

end Journal.Sound

/-- **Entering a layer keeps a journal sound**, whether it succeeds or fails. -/
theorem sound_enter (l : Layer) (r : Role) : Keeps Journal.Sound (l.enterNoted r) := by
  intro j hj
  have hn : Numbered (j.context.counter + 1)
      (numberedName (r.stem l.kind) (j.context.counter + 1)) := numbered_numberedName _ _
  -- one name is noted whether the layer fails or not, so only the context differs
  have hafter : ((l.enterNoted r).run j).2 = ⟨((l.enter r).run j.context).2,
      j.minted ++ [numberedName (r.stem l.kind) (j.context.counter + 1)]⟩ := by
    rw [← (erases_enter l r).context, ← minted_enterNoted]
  rw [hafter]
  obtain ⟨e, -, he⟩ | ⟨d, -, he⟩ := l.enter_cases r j.context
  · rw [he]
    exact hj.mint hn
  · rw [he]
    exact hj.record hn d

theorem sound_mint (stem : String) : Keeps Journal.Sound (mintNoted stem) := by
  intro j hj
  rw [run_mintNoted]
  exact hj.mint (numbered_numberedName _ _)

/-! ## Sessions -/

/-- A step of a session. -/
inductive Step where
  /-- A name is minted. -/
  | mint (stem : String)
  /-- A design is converted, or no design. -/
  | convert (options : Options) (root : Option Node)
  /-- A node is written at a depth, or no node. -/
  | render (options : Options) (root : Option Node) (depth : Int)

/-- The context after a step, whether the step succeeds or fails. -/
def Step.after (s : Step) (c : Context) : Context :=
  match s with
  | .mint stem => ((DesignMarkup.mint stem).run c).2
  | .convert options root => ((DesignMarkup.convert options root).run c).2
  | .render options root depth => ((renderNode options root depth).run c).2

/-- The journal after a step. -/
def Step.noted (s : Step) (j : Journal) : Journal :=
  match s with
  | .mint stem => ((mintNoted stem).run j).2
  | .convert options root => ((convertNoted options root).run j).2
  | .render options root depth => ((renderNoted options root depth).run j).2

/-- The context after a session that starts fresh. -/
def sessionContext (steps : List Step) : Context :=
  steps.foldl (fun c s => s.after c) .fresh

/-- The journal after a session that starts fresh. -/
def sessionJournal (steps : List Step) : Journal :=
  steps.foldl (fun j s => s.noted j) .start

/-- The journal changes no step. -/
theorem Step.context_noted (s : Step) (j : Journal) : (s.noted j).context = s.after j.context := by
  cases s with
  | mint stem => exact (erases_mint stem).context j
  | convert options root => exact (convert_erases options root).context j
  | render options root depth => exact (render_erases options root depth).context j

/-- **What minting and entering a layer preserve, a step preserves**, whether it succeeds or fails. -/
theorem Step.keeps {holds : Journal → Prop} (hmint : ∀ stem, Keeps holds (mintNoted stem))
    (henter : ∀ (l : Layer) (r : Role), Keeps holds (l.enterNoted r)) (s : Step) {j : Journal}
    (h : holds j) : holds (s.noted j) := by
  cases s with
  | mint stem => exact hmint stem j h
  | convert options root => exact keeps_convert henter options root j h
  | render options root depth => exact keeps_render henter options root depth j h

theorem sessionJournal_concat (steps : List Step) (s : Step) :
    sessionJournal (steps ++ [s]) = s.noted (sessionJournal steps) := by
  rw [sessionJournal, List.foldl_append]
  rfl

theorem sessionContext_concat (steps : List Step) (s : Step) :
    sessionContext (steps ++ [s]) = s.after (sessionContext steps) := by
  rw [sessionContext, List.foldl_append]
  rfl

/-- **What minting and entering a layer preserve holds after every session** if it holds before. -/
theorem session_keeps (holds : Journal → Prop) (hmint : ∀ stem, Keeps holds (mintNoted stem))
    (henter : ∀ (l : Layer) (r : Role), Keeps holds (l.enterNoted r)) (hstart : holds .start)
    (steps : List Step) : holds (sessionJournal steps) := by
  -- a step is added at the end, after the session so far
  induction steps using List.reverseRecOn with
  | nil => exact hstart
  | append_singleton steps s ih =>
    rw [sessionJournal_concat]
    exact s.keeps hmint henter ih

/-- The journal changes no session. -/
theorem session_context (steps : List Step) :
    (sessionJournal steps).context = sessionContext steps := by
  induction steps using List.reverseRecOn with
  | nil => rfl
  | append_singleton steps s ih =>
    rw [sessionJournal_concat, sessionContext_concat, Step.context_noted, ih]

/-- The journal of a session is sound and changes nothing. -/
theorem session_sound (steps : List Step) :
    (sessionJournal steps).Sound ∧ (sessionJournal steps).context = sessionContext steps :=
  ⟨session_keeps Journal.Sound sound_mint sound_enter sound_start steps, session_context steps⟩

/-! ## The names of a session -/

/-- Entering a layer does not set the counter back. -/
theorem counter_le_enter (n : Nat) (l : Layer) (r : Role) :
    Keeps (fun j => n ≤ j.context.counter) (l.enterNoted r) := by
  intro j hj
  rw [(erases_enter l r).context]
  obtain ⟨e, -, he⟩ | ⟨d, -, he⟩ := l.enter_cases r j.context
  · rw [he]
    exact Nat.le_succ_of_le hj
  · rw [he]
    exact Nat.le_succ_of_le hj

/-- **The counter never decreases**, also across a step that fails. -/
theorem Step.counter_le_after (s : Step) (c : Context) : c.counter ≤ (s.after c).counter := by
  have hnoted := s.context_noted ⟨c, []⟩
  rw [← hnoted]
  refine s.keeps (fun stem j hj => ?_) (counter_le_enter c.counter) (Nat.le_refl c.counter)
  rw [run_mintNoted]
  exact Nat.le_succ_of_le hj

/-- The names of a sound journal with their numbers. -/
theorem Journal.Sound.forall₂_range {j : Journal} (h : j.Sound) :
    List.Forall₂ Numbered (List.range' 1 j.minted.length) j.minted := by
  refine List.forall₂_iff_get.mpr ⟨List.length_range', ?_⟩
  intro k hk hk'
  have hname : j.minted[k]? = some (j.minted.get ⟨k, hk'⟩) := List.getElem?_eq_getElem hk'
  rw [List.get_eq_getElem, List.getElem_range', Nat.one_mul, Nat.add_comm]
  exact h.numbered k _ hname

/-- Names with different numbers differ. -/
theorem Journal.Sound.nodup {j : Journal} (h : j.Sound) : j.minted.Nodup := by
  refine List.nodup_iff_getElem?_ne_getElem?.mpr ?_
  intro i k hik hk he
  have hname : j.minted[k]? = some j.minted[k] := List.getElem?_eq_getElem hk
  have hnumbers := (h.numbered i _ (he.trans hname)).unique (h.numbered k _ hname)
  omega

/-- What corresponds to a part of a list, one by one. -/
theorem exists_sublist_forall₂ {α β : Type} {related : α → β → Prop} {bs bs' : List β}
    (hs : bs'.Sublist bs) :
    ∀ {as : List α}, List.Forall₂ related as bs →
      ∃ as', as'.Sublist as ∧ List.Forall₂ related as' bs' := by
  induction hs with
  | slnil => exact fun _ => ⟨[], List.nil_sublist _, .nil⟩
  | cons b _ ih =>
    intro as h
    cases h with
    | cons hab h =>
      obtain ⟨as', hs', h'⟩ := ih h
      exact ⟨as', hs'.cons _, h'⟩
  | cons_cons b _ ih =>
    intro as h
    cases h with
    | cons hab h =>
      obtain ⟨as', hs', h'⟩ := ih h
      exact ⟨_ :: as', hs'.cons_cons _, .cons hab h'⟩

/-- **The names of a session.** The `k`-th name minted ends in `k`, so no two are the same; the counter
is the number of names and never decreases; and the rules of the stylesheet stand under names with
strictly increasing numbers, none above the counter. -/
theorem session_names (steps : List Step) :
    (sessionJournal steps).context = sessionContext steps ∧
    (∀ k name, (sessionJournal steps).minted[k]? = some name → Numbered (k + 1) name) ∧
    (sessionJournal steps).minted.Nodup ∧
    (sessionContext steps).counter = (sessionJournal steps).minted.length ∧
    (∀ s : Step, (sessionContext steps).counter ≤ (s.after (sessionContext steps)).counter) ∧
    ∃ numbers, List.Forall₂ Numbered numbers (sessionContext steps).styles.names ∧
      numbers.Pairwise (· < ·) ∧ ∀ k ∈ numbers, k ≤ (sessionContext steps).counter := by
  obtain ⟨hsound, hcontext⟩ := session_sound steps
  rw [← hcontext]
  refine ⟨rfl, hsound.numbered, hsound.nodup, hsound.counter, fun s => s.counter_le_after _, ?_⟩
  -- the rules stand under a part of the names minted, so their numbers are a part of 1, 2, 3, …
  obtain ⟨numbers, hsub, hnumbers⟩ := exists_sublist_forall₂ hsound.names hsound.forall₂_range
  refine ⟨numbers, hnumbers, List.Pairwise.sublist hsub List.pairwise_lt_range', ?_⟩
  intro k hk
  have hrange := List.mem_range'_1.mp (hsub.subset hk)
  rw [hsound.counter]
  omega

end DesignMarkup
