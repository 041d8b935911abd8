import DesignMarkup.Proofs.Conversion.Depiction
import DesignMarkup.Proofs.Conversion.Entered
import DesignMarkup.Proofs.Conversion.Failure

/-!
# `Proofs.Conversion.Abort` — where a conversion fails, and what it leaves

A conversion fails at the first shown layer with a number that it cannot round, unless no line can be
written at the depth of the root, in which case it has not begun. What it did before it failed stays in the
context: the layers before have their numbers and their rules. The layer at which it fails has its number
too, since that is the first thing it gets, and it has its rule if its declarations could be made, so that
the failure came only with its distances. No layer after it has anything.

## Contents

* `Number.Unroundable`, `Layer.Unroundable`: what cannot be rounded; `Layer.unroundable_iff`;
* `enterAll_entered`, `Layer.enter_fails`: layers that can and that cannot be entered;
* `LeftBy`, `enterAll_fails`: what is left at the first that cannot;
* `convert_fails`: **where a conversion fails, and what it leaves**;
* `uncountableDepth_fails`: a failure for no number of the design.
-/

namespace DesignMarkup

/-! ## What cannot be rounded -/

/-- **A number cannot be rounded** if it is not a number, an infinity, or a whole number too large for a
double. -/
def Number.Unroundable : Number → Prop
  | .int n => Binary64.overflowBound ≤ n.natAbs
  | .double (.finite _) => False
  | .double (.infinity _) => True
  | .double .nan => True

theorem Number.unroundable_iff (a : Number) : a.Unroundable ↔ ¬a.Bounded 1 := by
  cases a with
  | int n => rw [Unroundable, Bounded, Nat.one_mul, Nat.not_lt]
  | double x =>
    cases x with
    | finite x => exact iff_of_false id (not_not_intro (bounded_finite x))
    | infinity negative => exact iff_of_true trivial id
    | nan => exact iff_of_true trivial id

/-- Some channel of the colour, times 255, cannot be rounded. -/
def Color.Unroundable (c : Color) : Prop :=
  ∃ channel ∈ [c.red, c.green, c.blue], (channel.scale 255).Unroundable

theorem Color.unroundable_iff (c : Color) : c.Unroundable ↔ ¬c.Bounded := by
  have hchannel (a : Number) : (a.scale 255).Unroundable ↔ ¬a.Bounded 255 := by
    rw [Number.unroundable_iff, Number.bounded_scale]
  simp only [Unroundable, Bounded, hchannel, List.mem_cons, List.not_mem_nil, or_false, exists_eq_or_imp,
    exists_eq_left]
  tauto

/-- **What makes a layer fail**: the colour of its first fill or its first stroke, if that is solid, the
colour of a drop shadow that is not switched off, or a padding or a gap that is not zero. -/
inductive Layer.Unroundable (l : Layer) : Prop where
  | fill {p : Paint} {c : Color} :
    l.fills.head? = some p → p.isSolid = true → p.color = some c → c.Unroundable → l.Unroundable
  | stroke {p : Paint} {c : Color} :
    l.strokes.head? = some p → p.isSolid = true → p.color = some c → c.Unroundable → l.Unroundable
  | shadow {e : Effect} {c : Color} :
    e ∈ l.effects → e.isDropShadow = true → e.visible ≠ some false → e.color = some c →
    c.Unroundable → l.Unroundable
  | distance {a : Number} :
    some a ∈ [l.padding.left, l.padding.right, l.padding.top, l.padding.bottom, l.itemSpacing] →
    a.isZero = false → a.Unroundable → l.Unroundable

/-- A measure is bounded unless it is a number that is not zero and cannot be rounded. -/
theorem measureBounded_of {measure : Option Number}
    (h : ∀ a, measure = some a → a.isZero = false → ¬a.Unroundable) : MeasureBounded measure := by
  intro a ha
  cases hzero : a.isZero with
  | true => exact Number.bounded_of_isZero hzero
  | false => exact not_not.mp fun hb => h a ha hzero (a.unroundable_iff.mpr hb)

/-- A layer fails exactly if some number that a conversion rounds is not bounded. -/
theorem Layer.unroundable_iff (l : Layer) : l.Unroundable ↔ ¬l.Bounded := by
  constructor
  · intro h hb
    cases h with
    | fill hp hs hc hu => exact (Color.unroundable_iff _).mp hu (hb.fill _ hp hs _ hc)
    | stroke hp hs hc hu => exact (Color.unroundable_iff _).mp hu (hb.stroke _ hp hs _ hc)
    | shadow he hd hv hc hu => exact (Color.unroundable_iff _).mp hu (hb.shadows _ he hd hv _ hc)
    | @distance a hm _ hu =>
      refine a.unroundable_iff.mp hu ?_
      simp only [List.mem_cons, List.not_mem_nil, or_false] at hm
      rcases hm with hm | hm | hm | hm | hm
      · exact hb.left a hm.symm
      · exact hb.right a hm.symm
      · exact hb.top a hm.symm
      · exact hb.bottom a hm.symm
      · exact hb.gap a hm.symm
  · intro hb
    by_contra hu
    have hcolor {color : Option Color} (h : ∀ c, color = some c → c.Unroundable → l.Unroundable) :
        ColorBounded color :=
      fun c hc => not_not.mp fun hnot => hu (h c hc (c.unroundable_iff.mpr hnot))
    have hmeasure {measure : Option Number} (hm : measure ∈
        [l.padding.left, l.padding.right, l.padding.top, l.padding.bottom, l.itemSpacing]) :
        MeasureBounded measure :=
      measureBounded_of fun a ha hzero ha' => hu (.distance (ha ▸ hm) hzero ha')
    refine hb ⟨⟨?_, ?_, ?_⟩, ⟨?_, ?_, ?_, ?_, ?_⟩⟩
    · exact fun p hp hs => hcolor fun c hc => .fill hp hs hc
    · exact fun p hp hs => hcolor fun c hc => .stroke hp hs hc
    · exact fun e he hd hv => hcolor fun c hc => .shadow he hd hv hc
    all_goals exact hmeasure (by simp)

/-! ## Layers that can and that cannot be entered -/

/-- The layer is the place of a failure: it is no text, and it has a number that cannot be rounded. -/
def Layer.Fails (l : Layer) : Prop :=
  l.kind ≠ .text ∧ l.Unroundable

theorem Layer.not_fails_iff (l : Layer) : ¬l.Fails ↔ (l.kind ≠ .text → l.Bounded) := by
  rw [Layer.Fails, l.unroundable_iff, not_and, not_not]

/-- Layers of which none fails are entered one after the other. -/
theorem enterAll_entered (options : Options) {ls : List Layer} (h : ∀ l ∈ ls, ¬l.Fails) (j : Journal) :
    ∃ ds j', Entered options j ls ds j' ∧
      (enterAll options ls).run j.context = (.ok (), j'.context) := by
  induction ls generalizing j with
  | nil => exact ⟨[], j, .nil, rfl⟩
  | cons l ls ih =>
    obtain ⟨hl, hls⟩ := List.forall_mem_cons.mp h
    obtain ⟨classes, c, henter⟩ :=
      (l.enter_succeeds_iff options j.context).mpr (l.not_fails_iff.mp hl)
    obtain ⟨d, hd, -, hc⟩ := Layer.enter_ok henter
    obtain ⟨ds, j', hentered, hrun⟩ := ih hls (j.enter options l d)
    refine ⟨d :: ds, j', .cons hd hentered, ?_⟩
    rw [enterAll, run_bind_ok henter, hc]
    exact hrun

/-- The rule that is left of a layer at which a conversion fails: none if its declarations fail, and none
if it declares nothing. -/
def Layer.ruleLeft (options : Options) (k : Nat) (l : Layer) : List (String × Declarations) :=
  match l.declarations with
  | .error _ => []
  | .ok d => if d.isEmpty then [] else [(l.ownClass options k, d)]

/-- **A layer that fails** takes a number, and leaves its rule if it could be made. -/
theorem Layer.enter_fails {l : Layer} (h : l.Fails) (options : Options) {j : Journal} (hj : j.Sound) :
    ∃ e c, (l.enter (l.role options)).run j.context = (.error (.rounding e), c) ∧
      c.counter = j.context.counter + 1 ∧
      c.styles.rules =
        j.context.styles.rules ++ l.ruleLeft options (j.context.counter + 1) := by
  have hfails : ¬SucceedsFrom (l.enter (l.role options)) j.context := by
    rw [l.enter_succeeds_iff, ← l.not_fails_iff]
    exact not_not_intro h
  have hdeclares := l.roleDeclarations_eq options
  rw [if_neg h.1] at hdeclares
  -- it fails with its declarations, before they are recorded, or with its classes, after that
  obtain ⟨e, hd, hrun⟩ | ⟨d, hd, hrun⟩ := l.enter_cases (l.role options) j.context
  · rw [hdeclares] at hd
    refine ⟨e, _, hrun, rfl, ?_⟩
    rw [Layer.ruleLeft, hd, List.append_nil]
    rfl
  · rw [hdeclares] at hd
    cases hclasses : l.roleClasses (l.role options)
        (numberedName ((l.role options).stem l.kind) (j.context.counter + 1)) with
    | error e =>
      rw [hclasses] at hrun
      refine ⟨e, _, hrun, rfl, ?_⟩
      rw [Layer.ruleLeft, hd]
      exact (hj.enter options l d).2
    | ok classes =>
      rw [hclasses] at hrun
      exact absurd ⟨classes, _, hrun⟩ hfails

/-! ## The first layer that fails -/

/-- **What is left in a context** by a conversion that fails at a layer, after the layers before it: the
counter has moved on by the place of the layer, and after the rules that were there the stylesheet has
those of the layers before, and that of the layer itself if it could be made. -/
structure LeftBy (options : Options) (c : Context) (before : List Layer) (l : Layer) (c' : Context) :
    Prop where
  counter : c'.counter = c.counter + (before.length + 1)
  rules : ∃ ds, List.Forall₂ Layer.Declares before ds ∧
    c'.styles.rules = c.styles.rules ++ Layer.ownRules options (c.counter + 1) before ds ++
      l.ruleLeft options (c.counter + (before.length + 1))

/-- **Layers entered one after the other fail at the first that fails**, and leave what is left there. -/
theorem enterAll_fails (options : Options) {before : List Layer} {l : Layer} (later : List Layer)
    (hbefore : ∀ m ∈ before, ¬m.Fails) (hl : l.Fails) {j : Journal} (hj : j.Sound) :
    ∃ e c, (enterAll options (before ++ l :: later)).run j.context = (.error (.rounding e), c) ∧
      LeftBy options j.context before l c := by
  obtain ⟨ds, j', hentered, hrun⟩ := enterAll_entered options hbefore j
  obtain ⟨hj', -, hcounter, hrules⟩ := hentered.leaves hj
  obtain ⟨e, c, hfail, hcount, hleft⟩ := l.enter_fails hl options hj'
  rw [hcounter, Nat.add_assoc] at hcount hleft
  refine ⟨e, c, ?_, hcount, ds, hentered.declared, ?_⟩
  -- what comes later is never reached
  · rw [enterAll_append, run_bind_ok hrun, enterAll]
    exact run_bind_error hfail
  · rw [hleft, hrules]

/-- If a list has an element of a kind, it has a first one. -/
theorem exists_first {α : Type} {p : α → Prop} {as : List α} (h : ∃ a ∈ as, p a) :
    ∃ before a later, as = before ++ a :: later ∧ (∀ b ∈ before, ¬p b) ∧ p a := by
  induction as with
  | nil =>
    obtain ⟨a, ha, -⟩ := h
    exact absurd ha List.not_mem_nil
  | cons b as ih =>
    by_cases hb : p b
    · exact ⟨[], b, as, rfl, fun c hc => absurd hc List.not_mem_nil, hb⟩
    · obtain ⟨before, a, later, rfl, hbefore, ha⟩ := ih (by simpa [hb] using h)
      exact ⟨b :: before, a, later, rfl, List.forall_mem_cons.mpr ⟨hb, hbefore⟩, ha⟩

/-! ## Whole conversions -/

/-- A computation that fails by its effect fails. -/
theorem run_of_effect_error {α : Type} {x : Conversion α} {c c' : Context} {e : ConversionError}
    (h : (effect x).run c = (.error e, c')) : x.run c = (.error e, c') := by
  rcases hx : x.run c with ⟨r, c₁⟩
  cases r with
  | error e₁ =>
    rw [effect, run_bind_error hx] at h
    obtain ⟨he, rfl⟩ := Prod.mk.inj h
    rw [Except.error.inj he]
  | ok a =>
    rw [effect, run_bind_ok hx] at h
    cases h

/-- Lines can be written at the depth. -/
def Writable (depth : Int) : Prop :=
  Html.minDepth ≤ depth ∧ depth < Html.hugeDepth

theorem run_entering {depth : Int} {r : Except Html.DepthError Unit} (h : Html.checkDepth depth = r)
    (c : Context) : (entering depth).run c = (r.mapError .depth, c) :=
  congrArg (fun r : Except Html.DepthError Unit => (r.mapError ConversionError.depth, c)) h

/-- Where no line can be written a rendering has not begun. -/
theorem renderNode_unwritable {options : Options} {depth : Int} (h : ¬Writable depth) (n : Node)
    (c : Context) : ∃ e, (renderNode options (some n) depth).run c = (.error (.depth e), c) := by
  cases hdepth : Html.checkDepth depth with
  | ok u => exact absurd ((checkDepth_succeeds_iff _).mp ⟨u, hdepth⟩) h
  | error e =>
    refine ⟨e, ?_⟩
    rw [renderNode]
    exact run_bind_error (run_entering hdepth c)

/-- Nor has the conversion. -/
theorem convert_unwritable {options : Options} (h : ¬Writable options.rootDepth) (n : Node) (c : Context) :
    ∃ e, (convert options (some n)).run c = (.error (.depth e), c) := by
  obtain ⟨e, he⟩ := renderNode_unwritable h n c
  exact ⟨e, run_bind_error he⟩

/-- Where lines can be written a conversion fails as its walk does. -/
theorem convert_of_walk_fails {options : Options} (h : Writable options.rootDepth) {n : Node}
    {c c' : Context} {e : ConversionError}
    (hwalk : (enterAll options (n.shown options)).run c = (.error e, c')) :
    (convert options (some n)).run c = (.error e, c') := by
  obtain ⟨u, hdepth⟩ := (checkDepth_succeeds_iff _).mpr h
  rw [← n.toElement_effect] at hwalk
  rw [convert, renderNode, bind_assoc, run_bind_ok (run_entering hdepth c), bind_assoc]
  exact run_bind_error (run_of_effect_error hwalk)

/-- **Where a conversion fails, and what it leaves**, in every context that a session has reached. It fails
exactly if no line can be written at the depth of the root or some shown layer fails. In the first case
the context is as it was. In the second it is left as at the first layer that fails. -/
theorem convert_fails (steps : List Step) (options : Options) (n : Node) :
    ((∃ e c', (convert options (some n)).run (sessionContext steps) = (.error e, c')) ↔
      ¬Writable options.rootDepth ∨ ∃ l ∈ n.shown options, l.Fails) ∧
    (¬Writable options.rootDepth →
      ∃ e, (convert options (some n)).run (sessionContext steps) =
        (.error (.depth e), sessionContext steps)) ∧
    (Writable options.rootDepth → (∃ l ∈ n.shown options, l.Fails) →
      ∃ before l later, n.shown options = before ++ l :: later ∧ (∀ m ∈ before, ¬m.Fails) ∧ l.Fails ∧
        ∃ e c', (convert options (some n)).run (sessionContext steps) = (.error (.rounding e), c') ∧
          LeftBy options (sessionContext steps) before l c') := by
  refine ⟨?_, fun hdepth => convert_unwritable hdepth n _, fun hdepth hfails => ?_⟩
  · rw [← not_succeedsFrom_iff, convert_succeeds_iff, not_and_or]
    simp only [← Layer.not_fails_iff, not_forall, not_not, exists_prop]
    rfl
  · -- a context of a session is that of a sound journal, so every name that follows is new
    obtain ⟨hsound, hcontext⟩ := session_sound steps
    obtain ⟨before, l, later, hshown, hbefore, hl⟩ := exists_first hfails
    obtain ⟨e, c', hwalk, hleft⟩ := enterAll_fails options later hbefore hl hsound
    rw [hcontext] at hwalk hleft
    rw [← hshown] at hwalk
    exact ⟨before, l, later, hshown, hbefore, hl, e, c', convert_of_walk_fails hdepth hwalk, hleft⟩

/-- A design with three layers that can be entered before one whose left padding is not a number, and one
after it. -/
def paddedDesign : Node :=
  .node { Layer.bare .frame "Card" none with width := some (.int 40) }
    [.node (.bare .text "Title" (some "Hello")) [],
     .node { Layer.bare .group "Row" none with height := some (.int 9) }
      [.node { Layer.bare .rectangle "Box" none with
          width := some (.int 8), padding := ⟨some (.double .nan), none, none, none⟩ } [],
       .node { Layer.bare .image "Icon" none with width := some (.int 7) } []]]

/-- Its conversion leaves four numbers, and the rule of the layer that failed, in a context in which two
names were minted before. -/
theorem paddedDesign_left :
    Writable 2 ∧ (∃ l ∈ paddedDesign.shown {}, l.Fails) ∧
      (((convert {} (some paddedDesign)).run (sessionContext [.mint "a", .mint "b"])).2 =
        ⟨6, ⟨[("frame-3", [("width", "40px")]), ("group-5", [("height", "9px")]),
          ("rectangle-6", [("width", "8px")])]⟩⟩) ∧
      ∃ before l later, paddedDesign.shown {} = before ++ l :: later ∧
        (∀ m ∈ before, ¬m.Fails) ∧ l.Fails ∧
        ∃ e c', (convert {} (some paddedDesign)).run (sessionContext [.mint "a", .mint "b"]) =
            (.error (.rounding e), c') ∧
          LeftBy {} (sessionContext [.mint "a", .mint "b"]) before l c' := by
  have hdepth : Writable 2 := ⟨by decide, by decide⟩
  have hfails : ∃ l ∈ paddedDesign.shown {}, l.Fails := by
    refine ⟨_, List.mem_of_getElem? (i := 3) rfl, by decide, ?_⟩
    exact .distance List.mem_cons_self rfl trivial
  refine ⟨hdepth, hfails, by decide +kernel, ?_⟩
  exact (convert_fails [.mint "a", .mint "b"] {} paddedDesign).2.2 hdepth hfails

/-- **A conversion can fail for no number of the design**: the depth of the root may be one that no line can
be indented by. -/
theorem uncountableDepth_fails :
    ¬((∃ e c', (convert { rootDepth := -9223372036854775809 }
          (some (.node (.bare .frame "Card" none) []))).run .fresh = (.error e, c')) ↔
      ∃ l ∈ (Node.node (.bare .frame "Card" none) []).shown { rootDepth := -9223372036854775809 },
        l.Fails) := by
  intro h
  obtain ⟨l, hl, -, hu⟩ := h.mp ⟨.depth .uncountable, .fresh, rfl⟩
  obtain rfl : l = .bare .frame "Card" none := List.mem_singleton.mp hl
  -- a bare frame has no paint, no effect and no distance
  cases hu with
  | fill hp => cases hp
  | stroke hp => cases hp
  | shadow he => cases he
  | distance hm => simp [Layer.bare] at hm

end DesignMarkup
