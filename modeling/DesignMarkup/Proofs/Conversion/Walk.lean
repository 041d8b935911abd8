import DesignMarkup.Proofs.ClassName
import DesignMarkup.Proofs.Outcome

/-!
# `Proofs.Conversion.Walk` — the walk over a design as a list of entered layers

What a conversion counts and records depends only on the layers that it shows, one after the other:
the shape of the tree matters for the elements, not for the context. So the effect of a walk is that of
entering the shown layers in order, up to the first that cannot be entered, and every fact about the
context is an induction over a list.

## Contents

* `Role.Fits`, `Layer.role_eq_iff`: the role of a layer and the rule that gives it;
* `Layer.Declares`: what a layer declares;
* `Node.shown`, `Node.shown_subset_walk`: the layers that are shown, parents before children;
* `Layer.ownClass`: the class of a layer with its number;
* `Layer.enter_cases`: **all that entering a layer can do**;
* `enterAll`, `Node.toElement_effect`: **the walk as a list of entered layers**.
-/

namespace DesignMarkup

/-! ## Roles -/

/-- **When a role fits a layer**: the rule of the role, with what the rules before it leave to it. -/
def Role.Fits (options : Options) (l : Layer) : Role → Prop
  | .text => l.kind = .text
  | .container => l.kind.isContainer = true ∧ ¬(options.instanceAsButton = true ∧ l.kind = .inst)
  | .button =>
    l.kind ≠ .text ∧
      (l.kind.isContainer = true → options.instanceAsButton = true ∧ l.kind = .inst) ∧
      (l.kind = .inst ∨ namesButton l.name = true)
  | .image => l.kind = .image ∧ namesButton l.name = false
  | .plain => l.kind = .other ∧ namesButton l.name = false

/-- **The role of a layer is the one that fits.** -/
theorem Layer.role_eq_iff (options : Options) (l : Layer) (r : Role) :
    l.role options = r ↔ r.Fits options l := by
  unfold Layer.role
  cases r <;> simp only [Role.Fits] <;> cases l.kind <;> cases options.instanceAsButton <;>
    cases namesButton l.name <;> simp [Kind.isContainer]

/-- Texts, and only they, are shown as texts. -/
theorem Layer.role_eq_text_iff (options : Options) (l : Layer) :
    l.role options = .text ↔ l.kind = .text :=
  l.role_eq_iff options .text

/-- What a layer declares, by its kind: a text its typography, anything else its appearance. -/
theorem Layer.roleDeclarations_eq (options : Options) (l : Layer) :
    l.roleDeclarations (l.role options) =
      if l.kind = .text then .ok l.typography else l.declarations := by
  unfold Layer.roleDeclarations
  simp only [l.role_eq_text_iff options]

/-- **What a layer declares**: a text its typography, anything else its appearance. -/
def Layer.Declares (l : Layer) (d : Declarations) : Prop :=
  if l.kind = .text then d = l.typography else l.declarations = .ok d

theorem Layer.declares_of_role {options : Options} {l : Layer} {d : Declarations}
    (h : l.roleDeclarations (l.role options) = .ok d) : l.Declares d := by
  rw [l.roleDeclarations_eq options] at h
  unfold Layer.Declares
  split
  · next hk =>
    rw [if_pos hk] at h
    exact (Except.ok.inj h).symm
  · next hk =>
    rw [if_neg hk] at h
    exact h

/-! ## Shown layers -/

mutual

/-- **The layers that are shown of a node**, parents before children: the node itself, and what is shown
of its children if its role shows them. -/
def Node.shown (options : Options) : Node → List Layer
  | .node l children =>
    l :: if (l.role options).showsChildren then Node.shownAll options children else []

/-- The layers that are shown of several nodes. -/
def Node.shownAll (options : Options) : List Node → List Layer
  | [] => []
  | n :: rest => n.shown options ++ Node.shownAll options rest

end

mutual

/-- No layer is shown that is not in the design. -/
theorem Node.shown_subset_walk (o : Options) (n : Node) : n.shown o ⊆ n.walk := by
  match n with
  | .node l children =>
    rw [Node.shown, Node.walk]
    refine List.cons_subset_cons l ?_
    split
    · exact Node.shownAll_subset_walkAll o children
    · exact List.nil_subset _

theorem Node.shownAll_subset_walkAll (o : Options) (ns : List Node) :
    Node.shownAll o ns ⊆ Node.walkAll ns := by
  match ns with
  | [] => exact List.nil_subset _
  | n :: rest =>
    rw [Node.shownAll, Node.walkAll]
    exact List.append_subset.mpr
      ⟨fun l hl => List.mem_append_left _ (n.shown_subset_walk o hl),
        fun l hl => List.mem_append_right _ (Node.shownAll_subset_walkAll o rest hl)⟩

end

/-- The class of a layer with its number. -/
def Layer.ownClass (options : Options) (l : Layer) (number : Nat) : String :=
  numberedName ((l.role options).stem l.kind) number

/-! ## Entering a layer -/

/-- The context after a class was minted. -/
def Context.count (c : Context) : Context :=
  { c with counter := c.counter + 1 }

/-- The context after declarations were recorded. -/
def Context.record (c : Context) (name : String) (d : Declarations) : Context :=
  { c with styles := c.styles.record name d }

@[simp] theorem Context.count_counter (c : Context) : c.count.counter = c.counter + 1 := rfl
@[simp] theorem Context.count_styles (c : Context) : c.count.styles = c.styles := rfl
@[simp] theorem Context.record_counter (c : Context) (name : String) (d : Declarations) :
    (c.record name d).counter = c.counter := rfl
@[simp] theorem Context.record_styles (c : Context) (name : String) (d : Declarations) :
    (c.record name d).styles = c.styles.record name d := rfl

theorem run_mint (stem : String) (c : Context) :
    (mint stem).run c = (.ok (numberedName stem (c.counter + 1)), c.count) :=
  rfl

theorem run_rounding {α : Type} (r : Except RoundingError α) (c : Context) :
    (rounding r).run c = (r.mapError .rounding, c) :=
  rfl

/-- **All that entering a layer can do**: it counts; if the declarations fail, nothing else happens; if
they do not, they are recorded under the minted class, and the rest depends on the other classes. -/
theorem Layer.enter_cases (l : Layer) (r : Role) (c : Context) :
    (∃ e, l.roleDeclarations r = .error e ∧ (l.enter r).run c = (.error (.rounding e), c.count)) ∨
    (∃ d, l.roleDeclarations r = .ok d ∧
      (l.enter r).run c =
        ((l.roleClasses r (numberedName (r.stem l.kind) (c.counter + 1))).mapError .rounding,
          c.count.record (numberedName (r.stem l.kind) (c.counter + 1)) d)) := by
  -- the class is minted in any case; whether it is recorded is up to the declarations
  cases hd : l.roleDeclarations r with
  | error e =>
    refine Or.inl ⟨e, rfl, ?_⟩
    rw [Layer.enter, run_bind_ok (run_mint _ c)]
    exact run_bind_error (by rw [run_rounding, hd]; rfl)
  | ok d =>
    refine Or.inr ⟨d, rfl, ?_⟩
    have hround : (rounding (l.roleDeclarations r)).run c.count = (.ok d, c.count) := by
      rw [run_rounding, hd]
      rfl
    rw [Layer.enter, run_bind_ok (run_mint _ c), run_bind_ok hround]
    exact run_bind_ok (a := ()) rfl

/-- A layer that is entered has declarations and classes, and its own class among them. -/
theorem Layer.enter_ok {l : Layer} {r : Role} {c c' : Context} {classes : List String}
    (h : (l.enter r).run c = (.ok classes, c')) :
    ∃ d, l.roleDeclarations r = .ok d ∧
      l.roleClasses r (numberedName (r.stem l.kind) (c.counter + 1)) = .ok classes ∧
      c' = c.count.record (numberedName (r.stem l.kind) (c.counter + 1)) d := by
  obtain ⟨e, -, he⟩ | ⟨d, hd, he⟩ := l.enter_cases r c
  · rw [he] at h
    cases h
  · rw [he] at h
    obtain ⟨hr, hc⟩ := Prod.mk.inj h
    exact ⟨d, hd, mapError_eq_ok.mp hr, hc.symm⟩

/-- A node whose element is made has been entered, and so have its children if they are shown. -/
theorem Node.toElement_ok {options : Options} {l : Layer} {children : List Node} {c c' : Context}
    {e : Html.Element} (h : ((Node.node l children).toElement options).run c = (.ok e, c')) :
    ∃ classes c₁, (l.enter (l.role options)).run c = (.ok classes, c₁) ∧
      if (l.role options).showsChildren then
        ∃ es, (Node.toElements options children).run c₁ = (.ok es, c') ∧
          e = l.element (l.role options) classes es
      else c' = c₁ ∧ e = l.element (l.role options) classes [] := by
  rw [Node.toElement] at h
  obtain ⟨classes, c₁, henter, h⟩ := ok_of_run_bind h
  refine ⟨classes, c₁, henter, ?_⟩
  split at h
  · next hshows =>
    obtain ⟨es, c₂, hes, h⟩ := ok_of_run_bind h
    obtain ⟨he, rfl⟩ := Prod.mk.inj h
    rw [if_pos hshows]
    exact ⟨es, hes, (Except.ok.inj he).symm⟩
  · next hshows =>
    obtain ⟨he, rfl⟩ := Prod.mk.inj h
    rw [if_neg hshows]
    exact ⟨rfl, (Except.ok.inj he).symm⟩

/-! ## The walk as a list -/

/-- Layers entered one after the other. -/
def enterAll (options : Options) : List Layer → Conversion Unit
  | [] => return ()
  | l :: rest => do
    let _ ← l.enter (l.role options)
    enterAll options rest

theorem enterAll_append (options : Options) (ls ms : List Layer) :
    enterAll options (ls ++ ms) = (enterAll options ls >>= fun _ => enterAll options ms) := by
  induction ls with
  | nil => rw [List.nil_append, enterAll, pure_bind]
  | cons l ls ih => rw [List.cons_append, enterAll, ih, enterAll, bind_assoc]

/-- What a computation does to the context, without its result. -/
def effect {α : Type} (x : Conversion α) : Conversion Unit :=
  x >>= fun _ => pure ()

theorem effect_bind {α β : Type} (x : Conversion α) (f : α → Conversion β) :
    effect (x >>= f) = x >>= fun a => effect (f a) :=
  bind_assoc x f _

theorem effect_pure {α : Type} (a : α) : effect (pure a) = pure () :=
  pure_bind a _

/-- Shaping the result is no effect. -/
theorem effect_bind_pure {α β : Type} (x : Conversion α) (f : α → β) :
    effect (x >>= fun a => pure (f a)) = effect x := by
  rw [effect_bind]
  simp only [effect_pure]
  rfl

/-- A result that is not used matters by its effect only. -/
theorem bind_eq_effect {α β : Type} (x : Conversion α) (y : Conversion β) :
    (x >>= fun _ => y) = effect x >>= fun _ => y := by
  rw [effect, bind_assoc]
  simp only [pure_bind]

mutual

/-- **The effect of a walk** is that of entering the shown layers in order. -/
theorem Node.toElement_effect (options : Options) (n : Node) :
    effect (n.toElement options) = enterAll options (n.shown options) := by
  match n with
  | .node l children =>
    rw [Node.toElement, Node.shown, enterAll, effect_bind]
    congr 1
    funext classes
    split
    · rw [effect_bind_pure, Node.toElements_effect options children]
    · rw [effect_pure, enterAll]

theorem Node.toElements_effect (options : Options) (ns : List Node) :
    effect (Node.toElements options ns) = enterAll options (Node.shownAll options ns) := by
  match ns with
  | [] => rw [Node.toElements, Node.shownAll, enterAll, effect_pure]
  | n :: rest =>
    rw [Node.toElements, Node.shownAll, enterAll_append, ← Node.toElement_effect options n,
      ← Node.toElements_effect options rest, effect_bind]
    -- the elements found so far are used in the result only
    simp only [effect_bind_pure]
    exact bind_eq_effect _ _

end

end DesignMarkup
