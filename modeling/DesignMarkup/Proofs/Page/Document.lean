import DesignMarkup.Page.Document
import DesignMarkup.Proofs.Html.Escape

/-!
# `Proofs.Page.Document` — the stylesheet that a page names

A page says which stylesheet is its own: the link that follows the comment on custom styles. A reader finds
the comment where it first stands. The title is escaped, so it holds no comment, and if the release of the
style framework is written without tags, nothing that stands before the comment looks like it.

## Contents

* `after?`, `Passes`: looking for a mark;
* `ownStylesheet?`: **the stylesheet of a page, read from its text**;
* `ownStylesheet_document`: what a page names.
-/

namespace DesignMarkup.Page

/-! ## Looking for a mark -/

/-- What follows a mark where it first stands. -/
def after? (mark : List Char) : List Char → Option (List Char)
  | [] => none
  | c :: rest =>
    if mark.isPrefixOf (c :: rest) then some ((c :: rest).drop mark.length) else after? mark rest

/-- A mark that is looked for does not begin within these characters, whatever follows them. -/
def Passes (mark cs : List Char) : Prop :=
  ∀ rest, after? mark (cs ++ rest) = after? mark rest

theorem Passes.append {mark cs ds : List Char} (hcs : Passes mark cs) (hds : Passes mark ds) :
    Passes mark (cs ++ ds) := by
  intro rest
  rw [List.append_assoc, hcs, hds]

/-- The texts are the same as far as both go. -/
def agree : List Char → List Char → Bool
  | a :: as, b :: bs => a == b && agree as bs
  | _, _ => true

theorem agree_of_isPrefixOf {mark cs rest : List Char} (h : mark.isPrefixOf (cs ++ rest) = true) :
    agree mark cs = true := by
  induction cs generalizing mark with
  | nil => cases mark <;> rfl
  | cons c cs ih =>
    cases mark with
    | nil => rfl
    | cons m mark =>
      rw [List.cons_append, List.isPrefixOf_cons_cons, Bool.and_eq_true] at h
      rw [agree, h.1, ih h.2]
      rfl

/-- From no place on do the characters agree with the mark. -/
def clash (mark : List Char) : List Char → Bool
  | [] => true
  | c :: rest => !agree mark (c :: rest) && clash mark rest

theorem passes_of_clash {mark cs : List Char} (h : clash mark cs = true) : Passes mark cs := by
  intro rest
  induction cs with
  | nil => rfl
  | cons c cs ih =>
    rw [clash, Bool.and_eq_true, Bool.not_eq_true'] at h
    have hno : mark.isPrefixOf (c :: (cs ++ rest)) ≠ true := fun hprefix => by
      have hagree : agree mark (c :: cs) = true := agree_of_isPrefixOf hprefix
      rw [hagree] at h
      cases h.1
    rw [List.cons_append, after?, if_neg hno]
    exact ih h.2

/-- A mark is passed over where its first character does not occur. -/
theorem passes_of_not_mem {c : Char} {mark cs : List Char} (h : c ∉ cs) : Passes (c :: mark) cs := by
  apply passes_of_clash
  induction cs with
  | nil => rfl
  | cons d cs ih =>
    have hd : (c == d) = false := beq_eq_false_iff_ne.mpr fun he => h (he ▸ List.mem_cons_self)
    rw [clash, agree, hd, ih fun hmem => h (List.mem_cons_of_mem d hmem)]
    rfl

/-- A mark is found where it stands. -/
theorem after?_mark {c : Char} {mark rest : List Char} :
    after? (c :: mark) (c :: mark ++ rest) = some rest := by
  have hprefix : (c :: mark).isPrefixOf (c :: mark ++ rest) = true :=
    List.isPrefixOf_iff_prefix.mpr (List.prefix_append _ _)
  rw [List.cons_append] at hprefix ⊢
  rw [after?, if_pos hprefix, ← List.cons_append, List.drop_left]

/-! ## The stylesheet of a page -/

/-- The comment before the stylesheet that is a page's own. -/
def ownStylesMark : List Char :=
  "<!-- Custom Styles -->".toList

/-- The attribute of a link that refers to what is linked. -/
def referenceMark : List Char :=
  "href=\"".toList

/-- **The stylesheet that a page names as its own**: the reference of the link after the comment. -/
def ownStylesheet? (page : String) : Option String := do
  let link ← after? ownStylesMark page.toList
  let reference ← after? referenceMark link
  return String.ofList (reference.takeWhile (· != '"'))

/-- The lines before the title. -/
def linesBeforeTitle : String :=
  "<!DOCTYPE html>\n" ++
  "<html lang=\"en\">\n" ++
  "<head>\n" ++
  "    <meta charset=\"UTF-8\">\n" ++
  "    <meta name=\"viewport\" content=\"width=device-width, initial-scale=1.0\">\n" ++
  "    <title>"

/-- The lines from the title to the release of the style framework. -/
def linesBeforeVersion : String :=
  "</title>\n" ++
  "\n" ++
  "    <!-- Bootstrap CSS -->\n" ++
  "    <link href=\"" ++ "https://cdn.jsdelivr.net/npm/bootstrap@"

/-- The lines from the release of the style framework to the comment. -/
def linesBeforeMark : String :=
  "/dist" ++ "/css/bootstrap.min.css\" rel=\"stylesheet\">\n" ++
  "\n" ++ "    "

/-- What stands between the comment and the reference. -/
def linkStart : List Char :=
  "\n".toList ++ "    <link ".toList

/-- A page up to the reference to its own stylesheet. -/
theorem toList_document (body title : String) (isChild : Bool) (version : String) :
    ∃ rest, (document body title isChild version).toList =
      linesBeforeTitle.toList ++ ((Html.escape title).toList ++ (linesBeforeVersion.toList ++
        (version.toList ++ (linesBeforeMark.toList ++ (ownStylesMark ++ (linkStart ++
          (referenceMark ++ ((stylesheetHref isChild).toList ++ '"' :: rest)))))))) := by
  have hcomment : "    <!-- Custom Styles -->\n".toList =
      "    ".toList ++ (ownStylesMark ++ "\n".toList) := by
    decide +kernel
  have hlink : "    <link href=\"".toList = "    <link ".toList ++ referenceMark := by
    decide +kernel
  have hend : "\" rel=\"stylesheet\">\n".toList = '"' :: " rel=\"stylesheet\">\n".toList := by
    decide +kernel
  unfold document frameworkRoot linesBeforeTitle linesBeforeVersion linesBeforeMark linkStart
  simp only [String.toList_append, List.append_assoc, hcomment, hlink, hend, List.cons_append]
  exact ⟨_, rfl⟩

/-- Of the characters before the comment only those of the release can look like it. -/
theorem passes_head (title : String) {version : String} (h : '<' ∉ version.toList) :
    Passes ownStylesMark (linesBeforeTitle.toList ++ ((Html.escape title).toList ++
      (linesBeforeVersion.toList ++ (version.toList ++ linesBeforeMark.toList)))) := by
  have htag : ∀ {cs : List Char}, '<' ∉ cs → Passes ownStylesMark cs := fun hcs => passes_of_not_mem hcs
  have hbefore : Passes ownStylesMark linesBeforeTitle.toList := passes_of_clash (by decide +kernel)
  have hbetween : Passes ownStylesMark linesBeforeVersion.toList := passes_of_clash (by decide +kernel)
  have hafter : Passes ownStylesMark linesBeforeMark.toList := passes_of_clash (by decide +kernel)
  exact hbefore.append ((htag (Html.not_mem_escape rfl title)).append
    (hbetween.append ((htag h).append hafter)))

/-- **A page names its stylesheet**, whatever its title and its body are. -/
theorem ownStylesheet_document (body title : String) (isChild : Bool) {version : String}
    (h : '<' ∉ version.toList) :
    ownStylesheet? (document body title isChild version) = some (stylesheetHref isChild) := by
  obtain ⟨rest, hpage⟩ := toList_document body title isChild version
  have hmark : after? ownStylesMark (document body title isChild version).toList =
      some (linkStart ++ (referenceMark ++ ((stylesheetHref isChild).toList ++ '"' :: rest))) := by
    rw [hpage]
    have hpass := passes_head title h (ownStylesMark ++ (linkStart ++
      (referenceMark ++ ((stylesheetHref isChild).toList ++ '"' :: rest))))
    simp only [List.append_assoc] at hpass
    exact hpass.trans after?_mark
  have hreference : after? referenceMark
      (linkStart ++ (referenceMark ++ ((stylesheetHref isChild).toList ++ '"' :: rest))) =
      some ((stylesheetHref isChild).toList ++ '"' :: rest) := by
    have hpass : Passes referenceMark linkStart := passes_of_clash (by decide +kernel)
    exact (hpass _).trans after?_mark
  have hvalue : ((stylesheetHref isChild).toList ++ '"' :: rest).takeWhile (· != '"') =
      (stylesheetHref isChild).toList := by
    rw [List.takeWhile_append_of_pos]
    · simp
    · have hall : (stylesheetHref isChild).toList.all (· != '"') = true := by
        cases isChild <;> decide +kernel
      exact List.all_eq_true.mp hall
  rw [ownStylesheet?, hmark, Option.bind_eq_bind, Option.bind_some, hreference, Option.bind_some, hvalue,
    String.ofList_toList]
  rfl

end DesignMarkup.Page
