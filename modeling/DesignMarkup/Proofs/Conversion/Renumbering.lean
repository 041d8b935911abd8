import DesignMarkup.Proofs.Conversion.Catalogue
import DesignMarkup.Proofs.Conversion.Failure

/-!
# `Proofs.Conversion.Renumbering` — the same design later in a session

A design that is converted in a context in which `k` classes were minted before comes out as in a fresh
context, with every number of a minted class increased by `k`. The shift goes through each entered layer:
its own class is another one, its utility classes are the same, and merging treats both alike, since no
utility class can be taken for a minted one. The stylesheet gets the same rules under the shifted names,
after those that it had, since a journal that is sound has none of the new names.

## Contents

* `renumber`, `renumberMinted`, `renumberRule`: names and rules with other numbers;
* `Html.Element.mapClasses`: an element with other classes;
* `Layer.enter_renumbered`, `toElement_renumbered`: **the walk with other numbers**;
* `Context.followedBy`: one context after another;
* `conversion_renumbered`: **whole conversions**.
-/

namespace DesignMarkup

/-! ## Names with other numbers -/

/-- The name with its number increased by `k`. The number is what follows the last hyphen. -/
def renumber (k : Nat) (name : String) : String :=
  let fromEnd := name.toList.reverse
  let digits := (fromEnd.takeWhile (· != '-')).reverse
  let stem := (fromEnd.dropWhile (· != '-')).tail.reverse
  numberedName (String.ofList stem) (k + Nat.ofDigitChars 10 digits 0)

/-- A class with its number increased if it is one of the minted ones; other classes stay as they are. -/
def renumberMinted (k : Nat) (minted : List String) (c : String) : String :=
  if c ∈ minted then renumber k c else c

/-- A rule under the name with the increased number. -/
def renumberRule (k : Nat) (rule : String × Declarations) : String × Declarations :=
  (renumber k rule.1, rule.2)

theorem renumber_numberedName (k : Nat) (stem : String) (i : Nat) :
    renumber k (numberedName stem i) = numberedName stem (k + i) := by
  have hreverse : (numberedName stem i).toList.reverse =
      (Nat.toDigits 10 i).reverse ++ '-' :: stem.toList.reverse := by
    rw [toList_numberedName, List.reverse_append, List.reverse_cons, List.append_assoc,
      List.singleton_append]
  -- the digits have no hyphen, so they end where the one before them stands
  have hdigits : ∀ d ∈ (Nat.toDigits 10 i).reverse, (d != '-') = true := by
    intro d hd
    rw [bne_iff_ne]
    rintro rfl
    exact hyphen_not_mem_toDigits i (List.mem_reverse.mp hd)
  simp only [renumber]
  rw [hreverse, List.takeWhile_append_of_pos hdigits, List.dropWhile_append_of_pos hdigits]
  simp

section Layers

variable (options : Options) (k : Nat)

theorem Layer.renumber_ownClass (l : Layer) (i : Nat) :
    renumber k (l.ownClass options i) = l.ownClass options (k + i) :=
  renumber_numberedName k _ i

theorem Layer.map_renumber_ownClasses (i : Nat) (ls : List Layer) :
    (Layer.ownClasses options i ls).map (renumber k) = Layer.ownClasses options (k + i) ls := by
  induction ls generalizing i with
  | nil => rfl
  | cons l ls ih => rw [ownClasses, List.map_cons, l.renumber_ownClass, ih, ← Nat.add_assoc, ← ownClasses]

theorem Layer.map_renumberRule_ownRules (i : Nat) (ls : List Layer) (ds : List Declarations) :
    (Layer.ownRules options i ls ds).map (renumberRule k) = Layer.ownRules options (k + i) ls ds := by
  rw [ownRules, ownRules, ← Layer.map_renumber_ownClasses, List.zip_map_left, List.filter_map]
  rfl

theorem Layer.length_ownClasses (i : Nat) (ls : List Layer) :
    (Layer.ownClasses options i ls).length = ls.length := by
  induction ls generalizing i with
  | nil => rfl
  | cons l ls ih => rw [ownClasses, List.length_cons, ih, List.length_cons]

/-- The class of a layer with its number is no utility class. -/
theorem Layer.not_mem_ownClasses {c : String} (h : Layout.IsUtility c) (i : Nat) (ls : List Layer) :
    c ∉ Layer.ownClasses options i ls := by
  induction ls generalizing i with
  | nil => exact List.not_mem_nil
  | cons l ls ih => exact List.not_mem_cons_of_ne_of_not_mem (h.ne_numberedName _ _ _) (ih (i + 1))

end Layers

/-! ## Elements with other classes -/

namespace Html.Element

mutual

/-- The element with each class replaced by another one. -/
def mapClasses (f : String → String) : Element → Element
  | .text tag classes content => .text tag (classes.map f) content
  | .image classes alt => .image (classes.map f) alt
  | .block tag classes children => .block tag (classes.map f) (mapClassesAll f children)

/-- Several elements with each class replaced by another one. -/
def mapClassesAll (f : String → String) : List Element → List Element
  | [] => []
  | e :: rest => mapClasses f e :: mapClassesAll f rest

end

end Html.Element

theorem Layer.element_mapClasses (f : String → String) (l : Layer) (r : Role) (classes : List String)
    (es : List Html.Element) :
    (l.element r classes es).mapClasses f =
      l.element r (classes.map f) (Html.Element.mapClassesAll f es) := by
  cases r <;> rfl

/-! ## The walk with other numbers -/

section Walk

variable {options : Options} {k : Nat} {f : String → String} {c c' c₁ : Context}

/-- **A layer entered with another number** has its own class with that number, and its other classes as they
are. -/
theorem Layer.enter_renumbered {l : Layer} {classes : List String}
    (hutility : ∀ u, Layout.IsUtility u → f u = u) (hcounter : c'.counter = k + c.counter)
    (hown : f (l.ownClass options (c.counter + 1)) = l.ownClass options (k + (c.counter + 1)))
    (h : (l.enter (l.role options)).run c = (.ok classes, c₁)) :
    ∃ c₁', (l.enter (l.role options)).run c' = (.ok (classes.map f), c₁') ∧
      c₁'.counter = k + c₁.counter := by
  obtain ⟨d, hd, hclasses, rfl⟩ := Layer.enter_ok h
  have hnext : c'.counter + 1 = k + (c.counter + 1) := by rw [hcounter, Nat.add_assoc]
  have hword (i : Nat) : IsWord (l.ownClass options i) := isWord_numberedName (isWord_stem _ _) i
  have hmapped : l.roleClasses (l.role options) (l.ownClass options (k + (c.counter + 1))) =
      .ok (classes.map f) := by
    rw [← hown]
    refine Layer.roleClasses_map hclasses (hword _).1 hutility ?_ ?_
    · rw [hown]
      exact (hword _).1
    · rw [hown]
      exact fun hu => hu.ne_numberedName _ _ _ rfl
  obtain ⟨e, he, -⟩ | ⟨d', -, hrun⟩ := l.enter_cases (l.role options) c'
  · rw [hd] at he
    cases he
  · rw [hnext] at hrun
    refine ⟨_, hrun.trans (Prod.ext ?_ rfl), hnext⟩
    exact mapError_eq_ok.mpr hmapped

mutual

/-- **A walk with other numbers** makes the same elements with the renumbered classes, if the classes of the
layers that it shows are renumbered and utility classes are left alone. -/
theorem toElement_renumbered (hutility : ∀ u, Layout.IsUtility u → f u = u) (n : Node)
    {c c' c₁ : Context} {e : Html.Element} (hcounter : c'.counter = k + c.counter)
    (hown : (Layer.ownClasses options (c.counter + 1) (n.shown options)).map f =
      Layer.ownClasses options (k + (c.counter + 1)) (n.shown options))
    (h : (n.toElement options).run c = (.ok e, c₁)) :
    ∃ c₁', (n.toElement options).run c' = (.ok (e.mapClasses f), c₁') ∧
      c₁'.counter = k + c₁.counter := by
  match n with
  | .node l children =>
    obtain ⟨classes, c₂, henter, hrest⟩ := Node.toElement_ok h
    rw [Node.shown, Layer.ownClasses, Layer.ownClasses, List.map_cons] at hown
    obtain ⟨hfirst, hbelow⟩ := List.cons.inj hown
    obtain ⟨c₂', henter', hcounter'⟩ := Layer.enter_renumbered hutility hcounter hfirst henter
    rw [Node.toElement, run_bind_ok henter']
    split at hrest
    · next hshows =>
      obtain ⟨es, hes, rfl⟩ := hrest
      have hnext : k + (c.counter + 1) + 1 = k + (c₂.counter + 1) := by
        rw [counter_enter henter, Nat.add_assoc]
      rw [if_pos hshows, hnext, ← counter_enter henter] at hbelow
      obtain ⟨c₁', hes', hcounter''⟩ := toElements_renumbered hutility children hcounter' hbelow hes
      rw [if_pos hshows, run_bind_ok hes', Layer.element_mapClasses]
      exact ⟨c₁', rfl, hcounter''⟩
    · next hshows =>
      obtain ⟨rfl, rfl⟩ := hrest
      rw [if_neg hshows, Layer.element_mapClasses]
      exact ⟨c₂', rfl, hcounter'⟩

theorem toElements_renumbered (hutility : ∀ u, Layout.IsUtility u → f u = u) (ns : List Node)
    {c c' c₁ : Context} {es : List Html.Element} (hcounter : c'.counter = k + c.counter)
    (hown : (Layer.ownClasses options (c.counter + 1) (Node.shownAll options ns)).map f =
      Layer.ownClasses options (k + (c.counter + 1)) (Node.shownAll options ns))
    (h : (Node.toElements options ns).run c = (.ok es, c₁)) :
    ∃ c₁', (Node.toElements options ns).run c' = (.ok (Html.Element.mapClassesAll f es), c₁') ∧
      c₁'.counter = k + c₁.counter := by
  match ns with
  | [] =>
    obtain ⟨he, rfl⟩ := Prod.mk.inj (h : (Except.ok [], c) = (Except.ok es, c₁))
    obtain rfl := Except.ok.inj he
    exact ⟨c', rfl, hcounter⟩
  | n :: rest =>
    obtain ⟨e, c₂, hn, h⟩ := ok_of_run_bind h
    obtain ⟨es', c₃, hrest, h⟩ := ok_of_run_bind h
    obtain ⟨he, rfl⟩ := Prod.mk.inj (h : (Except.ok (e :: es'), c₃) = (Except.ok es, c₁))
    obtain rfl := Except.ok.inj he
    -- the classes of the first node come first, and there are as many as it has layers that are shown
    rw [Node.shownAll, Layer.ownClasses_append, Layer.ownClasses_append, List.map_append] at hown
    obtain ⟨hfirst, hlater⟩ := List.append_inj hown (by rw [List.length_map, Layer.length_ownClasses,
      Layer.length_ownClasses])
    have hcount := (depicts_toElement options n hn).2.2
    have hnext : c.counter + 1 + (n.shown options).length = c₂.counter + 1 := by omega
    rw [Nat.add_assoc k, hnext] at hlater
    obtain ⟨c₂', hn', hcounter'⟩ := toElement_renumbered hutility n hcounter hfirst hn
    obtain ⟨c₃', hrest', hcounter''⟩ := toElements_renumbered hutility rest hcounter' hlater hrest
    rw [Node.toElements, run_bind_ok hn', run_bind_ok hrest', Html.Element.mapClassesAll]
    exact ⟨c₃', rfl, hcounter''⟩

end

end Walk

/-! ## Whole conversions -/

/-- **A context followed by another one**, of which the numbers come after its own. -/
def Context.followedBy (before c : Context) : Context :=
  ⟨before.counter + c.counter,
    ⟨before.styles.rules ++ c.styles.rules.map (renumberRule before.counter)⟩⟩

/-- **What layers leave later** is what they leave in a fresh context, with other numbers. -/
theorem Entered.followed {options : Options} {j j' j₁ : Journal} {ls : List Layer}
    {ds es : List Declarations} (hj : j.Sound) (h : Entered options .start ls ds j₁)
    (h' : Entered options j ls es j') :
    j'.context = j.context.followedBy j₁.context ∧
      j'.minted = j.minted ++ j₁.minted.map (renumber j.context.counter) := by
  obtain rfl := h.declarations_unique h'
  obtain ⟨-, hminted, hcounter, hrules⟩ := h.leaves sound_start
  obtain ⟨-, hminted', hcounter', hrules'⟩ := h'.leaves hj
  have hstart : Journal.start.context.counter + 1 = 1 := rfl
  rw [hstart] at hminted hrules
  have hfresh : j₁.context.counter = ls.length := hcounter.trans (Nat.zero_add _)
  have hrulesFresh : j₁.context.styles.rules = Layer.ownRules options 1 ls ds := hrules
  have hmintedFresh : j₁.minted = Layer.ownClasses options 1 ls := hminted
  constructor
  · rw [Context.followedBy, hfresh, ← hcounter', hrulesFresh, Layer.map_renumberRule_ownRules,
      ← hrules']
  · rw [hminted', hmintedFresh, Layer.map_renumber_ownClasses]

/-- A node that is written in a fresh context is written after whatever was converted, with other numbers. -/
theorem renderNode_renumbered {options : Options} {n : Node} {depth : Int} {j j₁ : Journal}
    {html : String} (hj : j.Sound)
    (h : (renderNoted options (some n) depth).run .start = (.ok html, j₁)) :
    ∃ e, (n.toElement options).run .fresh = (.ok e, j₁.context) ∧ html = e.render depth ∧
      (renderNode options (some n) depth).run j.context =
        (.ok ((e.mapClasses (renumberMinted j.context.counter j₁.minted)).render depth),
          j.context.followedBy j₁.context) := by
  have hplain := render_erases options (some n) depth .start
  rw [h] at hplain
  obtain ⟨hdepth, e, he, rfl⟩ := renderNode_ok hplain
  obtain ⟨e', helement, -⟩ := renderNoted_ok h
  obtain ⟨ds, hentered⟩ := entered_toElement options n helement
  have hminted : j₁.minted = Layer.ownClasses options 1 (n.shown options) :=
    (hentered.leaves sound_start).2.1
  refine ⟨e, he, rfl, ?_⟩
  -- the renumbering takes the minted classes to the later ones and leaves the utility classes alone
  have hutility : ∀ u, Layout.IsUtility u → renumberMinted j.context.counter j₁.minted u = u := by
    intro u hu
    rw [renumberMinted, hminted, if_neg (Layer.not_mem_ownClasses options hu _ _)]
  have hown : (Layer.ownClasses options 1 (n.shown options)).map
      (renumberMinted j.context.counter j₁.minted) =
        Layer.ownClasses options (j.context.counter + 1) (n.shown options) := by
    rw [← Layer.map_renumber_ownClasses]
    refine List.map_congr_left fun c hc => ?_
    rw [renumberMinted, hminted, if_pos hc]
  obtain ⟨c', hlater, -⟩ := toElement_renumbered hutility n rfl hown he
  -- the later walk enters the same layers
  have hnoted := toElement_erases options n j
  rcases hrun : (n.toElementNoted options).run j with ⟨r, j'⟩
  rw [hrun] at hnoted
  obtain ⟨rfl, rfl⟩ := Prod.mk.inj (hnoted.symm.trans hlater)
  obtain ⟨es, hentered'⟩ := entered_toElement options n hrun
  have hentering : (entering depth).run j.context = (.ok (), j.context) :=
    Prod.ext (mapError_eq_ok.mpr hdepth) rfl
  rw [renderNode, run_bind_ok hentering, run_bind_ok hlater, (hentered.followed hj hentered').1]
  rfl

/-- **The renumbering law.** After any session a node can be written exactly if it can be written in a fresh
context. Its markup is then the fresh one with the number of every minted class increased by the number of
classes that the session minted; the counter goes on from there; and the stylesheet has its rules as they
were, followed by the fresh ones under the increased numbers. -/
theorem conversion_renumbered (steps : List Step) (options : Options) (n : Node) (depth : Int) :
    (SucceedsFrom (renderNode options (some n) depth) (sessionContext steps) ↔
      SucceedsFrom (renderNode options (some n) depth) .fresh) ∧
    ∀ html c, (renderNode options (some n) depth).run .fresh = (.ok html, c) →
      ∃ e, (n.toElement options).run .fresh = (.ok e, c) ∧ html = e.render depth ∧
        (renderNode options (some n) depth).run (sessionContext steps) =
          (.ok ((e.mapClasses (renumberMinted (sessionContext steps).counter
              ((renderNoted options (some n) depth).run .start).2.minted)).render depth),
            (sessionContext steps).followedBy c) := by
  constructor
  · rw [renderNode_succeeds_iff, renderNode_succeeds_iff]
  · intro html c h
    obtain ⟨hsound, hcontext⟩ := session_sound steps
    have hnoted := render_erases options (some n) depth .start
    rcases hrun : (renderNoted options (some n) depth).run .start with ⟨r, j₁⟩
    rw [hrun] at hnoted
    obtain ⟨rfl, rfl⟩ := Prod.mk.inj (hnoted.symm.trans h)
    rw [← hcontext]
    exact renderNode_renumbered hsound hrun

theorem sampleDesign_renumbered :
    ((renderNode {} (some sampleDesign) 1).run .fresh).1.toOption = some sampleMarkup ∧
    ((renderNode {} (some sampleDesign) 1).run (sessionContext [.convert {} (some sampleDesign)])).2 =
      ⟨10, ⟨[("img-3", [("width", "40px")]), ("img-8", [("width", "40px")])]⟩⟩ ∧
    ∃ e c, (sampleDesign.toElement {}).run .fresh = (.ok e, c) ∧ sampleMarkup = e.render 1 ∧
      (renderNode {} (some sampleDesign) 1).run (sessionContext [.convert {} (some sampleDesign)]) =
        (.ok ((e.mapClasses (renumberMinted (sessionContext [.convert {} (some sampleDesign)]).counter
            ((renderNoted {} (some sampleDesign) 1).run .start).2.minted)).render 1),
          (sessionContext [.convert {} (some sampleDesign)]).followedBy c) := by
  have hmarkup : ((renderNode {} (some sampleDesign) 1).run .fresh).1.toOption = some sampleMarkup := by
    decide +kernel
  have hlater : ((renderNode {} (some sampleDesign) 1).run
      (sessionContext [.convert {} (some sampleDesign)])).2 =
        ⟨10, ⟨[("img-3", [("width", "40px")]), ("img-8", [("width", "40px")])]⟩⟩ := by
    decide +kernel
  obtain ⟨e, helement⟩ := (conversion_renumbered [.convert {} (some sampleDesign)] {} sampleDesign 1).2
    _ _ (run_of_toOption hmarkup)
  exact ⟨hmarkup, hlater, e, _, helement⟩

end DesignMarkup
