import DesignMarkup.Proofs.Conversion.Session

/-!
# `Proofs.Conversion.Entered` — layers entered one after the other

A walk enters layers in order. The list of the layers that were entered, with what each declares, determines
all that the walk leaves: the names it minted, the counter, and the rules of the stylesheet, which come after
those that were there, since every name is new.

## Contents

* `Journal.enter`, `Entered`: layers entered one after the other; `Entered.declarations_unique`;
* `Layer.ownClasses`, `Layer.ownRules`: their classes and their rules;
* `Entered.leaves`: **what they leave**;
* `Layer.enterNoted_ok`, `entered_toElement`: a walk that succeeds enters the shown layers.
-/

namespace DesignMarkup

/-! ## Layers that were entered -/

/-- The journal after a layer was entered that declares `d`. -/
def Journal.enter (options : Options) (j : Journal) (l : Layer) (d : Declarations) : Journal :=
  let name := l.ownClass options (j.context.counter + 1)
  ⟨j.context.count.record name d, j.minted ++ [name]⟩

/-- **Layers entered one after the other**, with what they declare, lead from one journal to another. -/
inductive Entered (options : Options) : Journal → List Layer → List Declarations → Journal → Prop where
  | nil {j : Journal} : Entered options j [] [] j
  | cons {j j' : Journal} {l : Layer} {d : Declarations} {ls : List Layer} {ds : List Declarations} :
    l.roleDeclarations (l.role options) = .ok d →
    Entered options (j.enter options l d) ls ds j' →
    Entered options j (l :: ls) (d :: ds) j'

theorem Entered.append {options : Options} {j j₁ j₂ : Journal} {ls ms : List Layer}
    {ds es : List Declarations} (h : Entered options j ls ds j₁) (h' : Entered options j₁ ms es j₂) :
    Entered options j (ls ++ ms) (ds ++ es) j₂ := by
  induction h with
  | nil => exact h'
  | cons hd _ ih => exact .cons hd (ih h')

/-- Every layer that was entered declares what the list says. -/
theorem Entered.declared {options : Options} {j j' : Journal} {ls : List Layer}
    {ds : List Declarations} (h : Entered options j ls ds j') : List.Forall₂ Layer.Declares ls ds := by
  induction h with
  | nil => exact .nil
  | cons hd _ ih => exact .cons (Layer.declares_of_role hd) ih

/-- Layers declare the same from whatever journal they are entered. -/
theorem Entered.declarations_unique {options : Options} {j j₁ k k₁ : Journal} {ls : List Layer}
    {ds es : List Declarations} (h : Entered options j ls ds j₁) (h' : Entered options k ls es k₁) :
    ds = es := by
  induction h generalizing k es with
  | nil =>
    cases h'
    rfl
  | cons hd _ ih =>
    cases h' with
    | cons hd' hrest => rw [Except.ok.inj (hd.symm.trans hd'), ih hrest]

/-! ## What they leave -/

/-- The classes of layers, numbered from `k` upwards. -/
def Layer.ownClasses (options : Options) (k : Nat) : List Layer → List String
  | [] => []
  | l :: rest => l.ownClass options k :: Layer.ownClasses options (k + 1) rest

theorem Layer.ownClasses_append (options : Options) (k : Nat) (ls ms : List Layer) :
    Layer.ownClasses options k (ls ++ ms) =
      Layer.ownClasses options k ls ++ Layer.ownClasses options (k + ls.length) ms := by
  induction ls generalizing k with
  | nil => rfl
  | cons l ls ih =>
    rw [List.cons_append, ownClasses, ownClasses, ih, List.length_cons, List.cons_append,
      Nat.add_right_comm, Nat.add_assoc]

/-- The rules of layers with classes numbered from `k` upwards: those that declare nothing have none. -/
def Layer.ownRules (options : Options) (k : Nat) (ls : List Layer) (ds : List Declarations) :
    List (String × Declarations) :=
  ((Layer.ownClasses options k ls).zip ds).filter fun rule => !rule.2.isEmpty

theorem Layer.ownRules_cons (options : Options) (k : Nat) (l : Layer) (d : Declarations)
    (ls : List Layer) (ds : List Declarations) :
    Layer.ownRules options k (l :: ls) (d :: ds) =
      (if d.isEmpty then [] else [(l.ownClass options k, d)]) ++
        Layer.ownRules options (k + 1) ls ds := by
  rw [ownRules, ownClasses, List.zip_cons_cons, List.filter_cons, ownRules]
  cases d.isEmpty <;> rfl

/-- A sound journal stays sound when a layer is entered, and its rule comes last, if it has one. -/
theorem Journal.Sound.enter {j : Journal} (h : j.Sound) (options : Options) (l : Layer)
    (d : Declarations) :
    (j.enter options l d).Sound ∧
      (j.enter options l d).context.styles.rules = j.context.styles.rules ++
        if d.isEmpty then [] else [(l.ownClass options (j.context.counter + 1), d)] := by
  have hn : Numbered (j.context.counter + 1) (l.ownClass options (j.context.counter + 1)) :=
    numbered_numberedName _ _
  exact ⟨h.record hn d, StyleTable.rules_record (h.not_mem_names hn) d⟩

/-- **What layers leave that were entered**: the journal has their classes, the counter their number, and
the stylesheet the rules of those that declare anything, after the rules that were there. -/
theorem Entered.leaves {options : Options} {j j' : Journal} {ls : List Layer}
    {ds : List Declarations} (h : Entered options j ls ds j') (hj : j.Sound) :
    j'.Sound ∧
      j'.minted = j.minted ++ Layer.ownClasses options (j.context.counter + 1) ls ∧
      j'.context.counter = j.context.counter + ls.length ∧
      j'.context.styles.rules = j.context.styles.rules ++
        Layer.ownRules options (j.context.counter + 1) ls ds := by
  induction h with
  | nil => exact ⟨hj, (List.append_nil _).symm, rfl, (List.append_nil _).symm⟩
  | @cons j j' l d ls ds _ _ ih =>
    obtain ⟨hsound, hfirst⟩ := hj.enter options l d
    have hcount : (j.enter options l d).context.counter = j.context.counter + 1 := rfl
    obtain ⟨hj', hminted, hcounter, hrules⟩ := ih hsound
    rw [hcount] at hminted hcounter hrules
    refine ⟨hj', ?_, ?_, ?_⟩
    · rw [hminted, Journal.enter, List.append_assoc]
      rfl
    · rw [hcounter, List.length_cons]
      omega
    · rw [hrules, hfirst, List.append_assoc, Layer.ownRules_cons]

/-! ## A walk that succeeds -/

/-- A layer that was entered declares something, and the journal has its class. -/
theorem Layer.enterNoted_ok {options : Options} {l : Layer} {j j' : Journal} {classes : List String}
    (h : (l.enterNoted (l.role options)).run j = (.ok classes, j')) :
    ∃ d, l.roleDeclarations (l.role options) = .ok d ∧ j' = j.enter options l d := by
  -- the context is that of the plain run, and the journal has one name more
  have hplain := erases_enter l (l.role options) j
  have hminted := minted_enterNoted l (l.role options) j
  rw [h] at hplain hminted
  obtain ⟨d, hd, -, hcontext⟩ := Layer.enter_ok hplain
  refine ⟨d, hd, ?_⟩
  rw [Journal.enter, Layer.ownClass, ← hcontext, ← hminted]

mutual

/-- **A walk that succeeds enters the shown layers** and no others. -/
theorem entered_toElement (options : Options) (n : Node) {j j' : Journal} {e : Html.Element}
    (h : (n.toElementNoted options).run j = (.ok e, j')) :
    ∃ ds, Entered options j (n.shown options) ds j' := by
  match n with
  | .node l children =>
    rw [Node.toElementNoted] at h
    obtain ⟨classes, j₁, henter, h⟩ := ok_of_run_bind h
    obtain ⟨d, hd, rfl⟩ := Layer.enterNoted_ok henter
    rw [Node.shown]
    split at h
    · next hshows =>
      obtain ⟨es, j₂, hes, h⟩ := ok_of_run_bind h
      obtain ⟨-, rfl⟩ := Prod.mk.inj h
      obtain ⟨ds, hds⟩ := entered_toElements options children hes
      rw [if_pos hshows]
      exact ⟨d :: ds, .cons hd hds⟩
    · next hshows =>
      obtain ⟨-, rfl⟩ := Prod.mk.inj h
      rw [if_neg hshows]
      exact ⟨[d], .cons hd .nil⟩

theorem entered_toElements (options : Options) (ns : List Node) {j j' : Journal}
    {es : List Html.Element} (h : (Node.toElementsNoted options ns).run j = (.ok es, j')) :
    ∃ ds, Entered options j (Node.shownAll options ns) ds j' := by
  match ns with
  | [] =>
    obtain ⟨-, rfl⟩ := Prod.mk.inj (h : (Except.ok [], j) = (Except.ok es, j'))
    exact ⟨[], .nil⟩
  | n :: rest =>
    obtain ⟨e, j₁, hn, h⟩ := ok_of_run_bind h
    obtain ⟨es', j₂, hrest, h⟩ := ok_of_run_bind h
    obtain ⟨-, rfl⟩ := Prod.mk.inj (h : (Except.ok (e :: es'), j₂) = (Except.ok es, j'))
    obtain ⟨ds, hds⟩ := entered_toElement options n hn
    obtain ⟨ds', hds'⟩ := entered_toElements options rest hrest
    exact ⟨ds ++ ds', hds.append hds'⟩

end

end DesignMarkup
