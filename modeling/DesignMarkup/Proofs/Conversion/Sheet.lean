import DesignMarkup.Proofs.Conversion.Depiction
import DesignMarkup.Proofs.Conversion.Session
import DesignMarkup.Proofs.Style.Scanner

/-!
# `Proofs.Conversion.Sheet` — the stylesheet of a session read back

What a layer declares is recorded under the class that was minted for it. The class is a word, and the
declarations have properties of letters and values that end nothing, whatever numbers, colours and shadows
the design has. So the stylesheet of a session is one that can be read back: its text has all its rules, in
their order and with nothing else.

## Contents

* `isSheet_record`, `sheet_enter`: **entering a layer keeps a stylesheet readable**;
* `session_sheet_read`: **the stylesheet of a session is read back**.
-/

namespace DesignMarkup

open Style

/-- A rule of declarations under a word keeps a stylesheet readable. -/
theorem isSheet_record {t : StyleTable} (h : Css.IsSheet t) {name : String} (hname : IsWord name)
    {ds : Declarations} (hds : ∀ d ∈ ds, IsDeclaration d) : Css.IsSheet (t.record name ds) := by
  unfold StyleTable.record
  split
  · exact h
  · intro rule hrule
    obtain rfl | hrule := Entries.mem_of_mem_put hrule
    · exact ⟨hname, hds⟩
    · exact h rule hrule

/-- **Entering a layer keeps a stylesheet readable**, whether it succeeds or fails. -/
theorem sheet_enter (l : Layer) (r : Role) :
    Keeps (fun j => Css.IsSheet j.context.styles) (l.enterNoted r) := by
  intro j hj
  rw [(erases_enter l r).context]
  obtain ⟨e, -, he⟩ | ⟨d, hd, he⟩ := l.enter_cases r j.context
  · rw [he]
    exact hj
  · rw [he]
    exact isSheet_record hj (isWord_numberedName (isWord_stem r l.kind) _)
      (Layer.roleDeclarations_isDeclaration hd)

theorem session_isSheet (steps : List Step) : Css.IsSheet (sessionContext steps).styles := by
  rw [← session_context]
  -- minting leaves the stylesheet alone
  exact session_keeps (fun j => Css.IsSheet j.context.styles) (fun _ _ h => h) sheet_enter
    (List.forall_mem_nil _) steps

/-- **The stylesheet of a session is read back** by a plain scanner: its rules in order, with their names,
properties and values. No class of a layer has a character that ends a declaration or a rule, nor has any
value that a layer declares; and different properties that layers declare are written differently. -/
theorem session_sheet_read (steps : List Step) :
    Css.read (sessionContext steps).styles.toCss = some (sessionContext steps).styles.rules ∧
    (∀ (l : Layer) (r : Role) (k : Nat) (cs : List String),
      l.roleClasses r (numberedName (r.stem l.kind) k) = .ok cs → ∀ c ∈ cs, Css.EndsNothing c) ∧
    (∀ (l : Layer) (r : Role) (ds : Declarations), l.roleDeclarations r = .ok ds →
      ∀ d ∈ ds, Css.EndsNothing d.2) ∧
    ∀ (l l' : Layer) (r r' : Role) (ds ds' : Declarations),
      l.roleDeclarations r = .ok ds → l'.roleDeclarations r' = .ok ds' →
      ∀ d ∈ ds, ∀ d' ∈ ds', propertyText d.1 = propertyText d'.1 → d.1 = d'.1 := by
  refine ⟨Css.read_toCss (session_isSheet steps), fun l r k cs h c hc => ?_, fun l r ds h d hd => ?_,
    fun l l' r r' ds ds' h h' d hd d' hd' he => ?_⟩
  · have hwords := (Layer.roleClasses_words (isWord_numberedName (isWord_stem r l.kind) k) h).2
    exact Css.Scanner.endsNothing_of_isWord (hwords c hc)
  · exact Css.Scanner.endsNothing_of_isValue (Layer.roleDeclarations_isDeclaration h d hd).value
  · exact Css.propertyText_injective (Layer.roleDeclarations_isDeclaration h d hd).property
      (Layer.roleDeclarations_isDeclaration h' d' hd').property he

/-- An image on a ground that can be seen through. -/
def sampleImage : Layer :=
  { Layer.bare .image "Logo" none with
    fills := [⟨"SOLID", some ⟨.int 1, .int 0, .int 0, .double Binary64.half⟩⟩]
    width := some (.int 40) }

/-- What it declares. -/
def sampleDeclarations : Declarations :=
  [("backgroundColor", "rgba(255, 0, 0, 0.5)"), ("width", "40px")]

theorem sampleImage_sheet_read :
    (sessionContext [.convert {} (some (.node sampleImage []))]).styles.toCss =
      "\n.img-1 \x7b\n  background-color: rgba(255, 0, 0, 0.5);\n  width: 40px;\n\x7d\n" ∧
    Css.read (sessionContext [.convert {} (some (.node sampleImage []))]).styles.toCss =
      some (sessionContext [.convert {} (some (.node sampleImage []))]).styles.rules ∧
    (sessionContext [.convert {} (some (.node sampleImage []))]).styles.rules =
      [("img-1", sampleDeclarations)] ∧
    (∀ c ∈ ["img-1", "img-fluid"], Css.EndsNothing c) ∧
    (∀ d ∈ sampleDeclarations, Css.EndsNothing d.2) ∧
    ∀ d ∈ sampleDeclarations, ∀ d' ∈ sampleDeclarations, propertyText d.1 = propertyText d'.1 → d.1 = d'.1 := by
  have hcss : (sessionContext [.convert {} (some (.node sampleImage []))]).styles.toCss =
      "\n.img-1 \x7b\n  background-color: rgba(255, 0, 0, 0.5);\n  width: 40px;\n\x7d\n" := by
    decide +kernel
  have hrules : (sessionContext [.convert {} (some (.node sampleImage []))]).styles.rules =
      [("img-1", sampleDeclarations)] := by
    decide +kernel
  have hclasses : sampleImage.roleClasses .image (numberedName (Role.image.stem sampleImage.kind) 1) =
      .ok ["img-1", "img-fluid"] := by
    decide +kernel
  have hdeclared : sampleImage.roleDeclarations .image = .ok sampleDeclarations := by
    decide +kernel
  obtain ⟨hread, hwords, hvalues, hinjective⟩ :=
    session_sheet_read [.convert {} (some (.node sampleImage []))]
  exact ⟨hcss, hread, hrules, hwords _ _ _ _ hclasses, hvalues _ _ _ hdeclared,
    hinjective _ _ _ _ _ _ hdeclared hdeclared⟩

end DesignMarkup
