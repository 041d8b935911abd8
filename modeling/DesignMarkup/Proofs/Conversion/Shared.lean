import DesignMarkup.Proofs.Conversion.Catalogue

/-!
# `Proofs.Conversion.Shared` — designs converted in a shared context

Several designs are converted one after the other, and each finds the context that the one before has left.
If all of them succeed, the stylesheet in the end has the rules of all, those of an earlier design before
those of a later one, and no class is minted twice, so that each rule stands under a class of one element
of one design.

## Contents

* `Converted`, `ConvertedAll`: designs converted one after the other;
* `exhibited_convertedAll`, `rules_append`: **the exhibits of all of them**, and the rules that they add;
* `SharedSheet`, `ConvertedAll.sharedSheet`: **the stylesheet that they share**.
-/

namespace DesignMarkup

/-! ## Designs one after the other -/

/-- A design as it was converted, with the settings and the result. -/
structure Converted where
  options : Options
  design : Node
  result : Result

/-- The conversion as a step of a session. -/
def Converted.step (p : Converted) : Step :=
  .convert p.options (some p.design)

/-- **Designs converted one after the other** lead from one context to another. -/
inductive ConvertedAll : Context → List Converted → Context → Prop where
  | nil {c : Context} : ConvertedAll c [] c
  | cons {c c₁ c₂ : Context} {p : Converted} {ps : List Converted} :
    (convert p.options (some p.design)).run c = (.ok p.result, c₁) →
    ConvertedAll c₁ ps c₂ → ConvertedAll c (p :: ps) c₂

/-- The exhibits of a design as it was converted. -/
def Converted.Exhibits (p : Converted) (xs : List Exhibit) : Prop :=
  Exhibited p.options p.design p.result.html xs

/-- The rules of exhibits that come after others. -/
theorem Exhibit.rules_append (xs ys : List Exhibit) :
    Exhibit.rules (xs ++ ys) = Exhibit.rules xs ++ Exhibit.rules ys := by
  rw [Exhibit.rules, List.filter_append, List.map_append]
  rfl

/-- **The exhibits of designs converted one after the other**, from a sound journal: the journal has their
classes after those that it had, and the stylesheet their rules after its own, design after design. -/
theorem exhibited_convertedAll {c c' : Context} {ps : List Converted} (h : ConvertedAll c ps c') :
    ∀ {j : Journal}, j.Sound → j.context = c →
      ∃ j' xss, List.Forall₂ Converted.Exhibits ps xss ∧
        (ps.map Converted.step).foldl (fun j s => s.noted j) j = j' ∧ j'.Sound ∧ j'.context = c' ∧
        j'.minted = j.minted ++ xss.flatten.map Exhibit.name ∧
        c'.styles.rules = c.styles.rules ++ Exhibit.rules xss.flatten := by
  induction h with
  | @nil c =>
    intro j hj hc
    refine ⟨j, [], .nil, rfl, hj, hc, ?_, ?_⟩
    · rw [List.flatten_nil, List.map_nil, List.append_nil]
    · rw [List.flatten_nil, Exhibit.rules, List.filter_nil, List.map_nil, List.append_nil]
  | @cons c c₁ c₂ p ps hrun _ ih =>
    intro j hj hc
    -- the conversion with its journal is the conversion, so it succeeds too
    have hplain := convert_erases p.options (some p.design) j
    rcases hnoted : (convertNoted p.options (some p.design)).run j with ⟨r, j₁⟩
    rw [hnoted, hc] at hplain
    obtain ⟨rfl, hcontext⟩ := Prod.mk.inj (hplain.symm.trans hrun)
    obtain ⟨xs, hxs, hj₁, hminted, -, hrules⟩ := exhibited_convert hj hnoted
    obtain ⟨j₂, xss, hxss, hfold, hj₂, hc₂, hminted₂, hrules₂⟩ := ih hj₁ hcontext
    refine ⟨j₂, xs :: xss, .cons hxs hxss, ?_, hj₂, hc₂, ?_, ?_⟩
    · rw [List.map_cons, List.foldl_cons, ← hfold, Converted.step, Step.noted, hnoted]
    · rw [hminted₂, hminted, List.flatten_cons, List.map_append, List.append_assoc]
    · rw [hrules₂, ← hcontext, hrules, hc, List.flatten_cons, Exhibit.rules_append, List.append_assoc]

/-- **Designs only add rules** to those of the session before them. -/
theorem ConvertedAll.rules_append {steps : List Step} {ps : List Converted} {c : Context}
    (h : ConvertedAll (sessionContext steps) ps c) :
    ∃ more, c.styles.rules = (sessionContext steps).styles.rules ++ more := by
  obtain ⟨hsound, hcontext⟩ := session_sound steps
  obtain ⟨-, shown, -, -, -, -, -, hrules⟩ := exhibited_convertedAll h hsound hcontext
  exact ⟨_, hrules⟩

/-! ## One stylesheet -/

/-- What declares anything has a rule. -/
theorem Exhibit.rule_mem_rules {x : Exhibit} {xs : List Exhibit} (hx : x ∈ xs)
    (hd : x.declarations ≠ []) : x.rule ∈ Exhibit.rules xs := by
  refine List.mem_map_of_mem (List.mem_filter.mpr ⟨hx, ?_⟩)
  rw [Bool.not_eq_true', List.isEmpty_eq_false_iff]
  exact hd

/-- The rules of exhibits with different classes stand under different names. -/
theorem Exhibit.nodup_rules {xs : List Exhibit} (h : (xs.map Exhibit.name).Nodup) :
    (Entries.keys (Exhibit.rules xs)).Nodup := by
  have hsub : (Entries.keys (Exhibit.rules xs)).Sublist (xs.map Exhibit.name) := by
    rw [Entries.keys, Exhibit.rules, List.map_map]
    exact List.filter_sublist.map _
  exact h.sublist hsub

/-- **One stylesheet for all pages**, with the exhibits of each. -/
structure SharedSheet (pages : List Converted) (shown : List (List Exhibit)) (table : StyleTable) :
    Prop where
  /-- Each page has its exhibits: one for each layer that is shown and each element of its markup. -/
  exhibited : List.Forall₂ Converted.Exhibits pages shown
  /-- Their classes are the names that the conversions mint. -/
  minted : (sessionJournal (pages.map Converted.step)).minted = shown.flatten.map Exhibit.name
  /-- No two of them are the same, on one page or on two. -/
  distinct : (shown.flatten.map Exhibit.name).Nodup
  /-- The stylesheet has the rules of all pages, page after page, and no others. -/
  rules : table.rules = Exhibit.rules shown.flatten
  /-- What declares anything has its own rule, and that is the only one under its class. -/
  once : ∀ x ∈ shown.flatten, x.declarations ≠ [] →
    x.rule ∈ table.rules ∧ table.names.count x.name = 1

/-- **Designs converted one after the other share one stylesheet.** -/
theorem ConvertedAll.sharedSheet {pages : List Converted} {c : Context}
    (h : ConvertedAll .fresh pages c) : ∃ shown, SharedSheet pages shown c.styles := by
  obtain ⟨j, shown, hshown, hfold, hsound, -, hminted, hrules⟩ :=
    exhibited_convertedAll h sound_start rfl
  have hjournal : sessionJournal (pages.map Converted.step) = j := hfold
  have hnames : j.minted = shown.flatten.map Exhibit.name := hminted
  have hstyles : c.styles.rules = Exhibit.rules shown.flatten := hrules
  have hdistinct : (shown.flatten.map Exhibit.name).Nodup := hnames ▸ hsound.nodup
  refine ⟨shown, hshown, hjournal ▸ hnames, hdistinct, hstyles, fun x hx hd => ?_⟩
  -- one rule at most, since the rules stand under different names
  have hrule : x.rule ∈ c.styles.rules := hstyles ▸ Exhibit.rule_mem_rules hx hd
  refine ⟨hrule, List.count_eq_one_of_mem ?_ (List.mem_map_of_mem hrule)⟩
  rw [StyleTable.names, hstyles]
  exact Exhibit.nodup_rules hdistinct

end DesignMarkup
