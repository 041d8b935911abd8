import DesignMarkup.Proofs.Html.Stretches
import DesignMarkup.Proofs.Page.Document

/-!
# `Proofs.Page.Parts` — the title and the body of a page

A reader of a page finds its title between the tags of the title, and its body between the tag that opens the body
and the comment on scripts. The title is escaped, so it ends where its tag ends. The release of the style framework
stands in the page as it is, so what comes after it is found where it was written if the release is written
without tags. What the body is read as follows then from what was put into it.

## Contents

* `before?`, `between?`, `between?_eq`: looking between marks;
* `title?`, `title_document`: **the title of a page**;
* `bodyPart`, `body?`, `body_document`: **the body of a page**;
* `read_bodyPart`: what it is read as.
-/

namespace DesignMarkup.Page

open Html Markup

/-! ## Looking between marks -/

/-- What stands before a mark where it first stands. -/
def before? (mark : List Char) : List Char → Option (List Char)
  | [] => none
  | c :: rest => if mark.isPrefixOf (c :: rest) then some [] else (before? mark rest).map (c :: ·)

/-- What stands after a mark where it first stands, up to where another mark first stands after it. -/
def between? (opening closing cs : List Char) : Option (List Char) :=
  (after? opening cs).bind (before? closing)

/-- A mark that is found parts a text. -/
theorem before?_of_after? {mark cs rest : List Char} (h : after? mark cs = some rest) :
    ∃ found, before? mark cs = some found ∧ cs = found ++ (mark ++ rest) := by
  induction cs with
  | nil => cases h
  | cons c cs ih =>
    unfold after? at h
    unfold before?
    split at h
    · next hprefix =>
      obtain rfl := Option.some.inj h
      refine ⟨[], if_pos hprefix, ?_⟩
      exact (List.prefix_iff_eq_append.mp (List.isPrefixOf_iff_prefix.mp hprefix)).symm
    · next hno =>
      obtain ⟨found, hfound, hparts⟩ := ih h
      refine ⟨c :: found, ?_, ?_⟩
      · rw [if_neg hno, hfound]
        rfl
      · rw [hparts]
        rfl

/-- **What stands between two marks is found**, if neither of them can be taken to begin before it does. -/
theorem between?_eq {o c : Char} {opening closing before inner rest : List Char}
    (hopen : Passes (o :: opening) before) (hclose : Passes (c :: closing) inner) :
    between? (o :: opening) (c :: closing) (before ++ (o :: opening ++ (inner ++ (c :: closing ++ rest)))) =
      some inner := by
  have hafter : after? (c :: closing) (inner ++ (c :: closing ++ rest)) = some rest := by
    rw [hclose, after?_mark]
  obtain ⟨found, hfound, hparts⟩ := before?_of_after? hafter
  obtain rfl := List.append_cancel_right hparts
  rw [between?, hopen, after?_mark, Option.bind_some, hfound]

/-! ## The title -/

/-- **The title of a page**, read from its text. -/
def title? (page : String) : Option String :=
  (between? "<title>".toList "</title>".toList page.toList).map fun cs => unescapeText (String.ofList cs)

/-- The lines before the tag of the title. -/
def linesBeforeTag : String :=
  "<!DOCTYPE html>\n" ++
  "<html lang=\"en\">\n" ++
  "<head>\n" ++
  "    <meta charset=\"UTF-8\">\n" ++
  "    <meta name=\"viewport\" content=\"width=device-width, initial-scale=1.0\">\n" ++
  "    "

theorem linesBeforeTitle_eq : linesBeforeTitle = linesBeforeTag ++ "<title>" := by
  have htag : "    <title>" = "    " ++ "<title>" := by decide +kernel
  unfold linesBeforeTitle linesBeforeTag
  simp only [htag, String.append_assoc]

theorem linesBeforeVersion_eq : ∃ rest, linesBeforeVersion = "</title>" ++ rest := by
  have htag : "</title>\n" = "</title>" ++ "\n" := by decide +kernel
  unfold linesBeforeVersion
  simp only [htag, String.append_assoc]
  exact ⟨_, rfl⟩

/-- The title of a page is the one that it was given. -/
theorem title_document (body title : String) (isChild : Bool) (version : String) :
    title? (document body title isChild version) = some title := by
  obtain ⟨rest, hpage⟩ := toList_document body title isChild version
  obtain ⟨lines, hlines⟩ := linesBeforeVersion_eq
  have hopen : Passes "<title>".toList linesBeforeTag.toList := by
    apply passes_of_clash
    unfold linesBeforeTag
    simp only [String.toList_append]
    decide +kernel
  have hclose : Passes "</title>".toList (escape title).toList :=
    passes_of_not_mem (not_mem_escape rfl title)
  have hfound : between? "<title>".toList "</title>".toList (document body title isChild version).toList =
      some (escape title).toList := by
    rw [hpage, linesBeforeTitle_eq, hlines]
    simp only [String.toList_append, List.append_assoc]
    exact between?_eq hopen hclose
  rw [title?, hfound, Option.map_some, String.ofList_toList, unescapeText_escape]

/-! ## The body -/

/-- What stands in a page between the tag that opens its body and the comment on scripts. -/
def bodyPart (body : String) : String :=
  "\n" ++ ("    <div class=\"container-fluid p-4\">\n" ++ body ++ "    </div>\n") ++ "\n    "

/-- The comment on scripts. -/
def scriptsMark : List Char :=
  "<!-- Bootstrap JS Bundle -->".toList

/-- **The body of a page**, read from its text up to the comment on scripts. -/
def body? (page : String) : Option String :=
  (between? "<body>".toList scriptsMark page.toList).map String.ofList

/-- The lines from the title to the body. -/
def linesToBody (title : String) (isChild : Bool) (version : String) : String :=
  linesBeforeTitle ++ escape title ++ linesBeforeVersion ++ version ++ linesBeforeMark ++
    "<!-- Custom Styles -->\n" ++
    "    <link href=\"" ++ stylesheetHref isChild ++ "\" rel=\"stylesheet\">\n" ++
    "</head>\n"

/-- The lines after the comment on scripts. -/
def linesAfterBody (version : String) : String :=
  "\n" ++
  "    <script src=\"" ++ frameworkRoot version ++ "/js/bootstrap.bundle.min.js\"></script>\n" ++
  "</body>\n" ++
  "</html>\n"

/-- The body in the midst of a page. -/
theorem document_eq (body title : String) (isChild : Bool) (version : String) :
    document body title isChild version = linesToBody title isChild version ++ "<body>" ++ bodyPart body ++
      String.ofList scriptsMark ++ linesAfterBody version := by
  have hmark : "    <!-- Custom Styles -->\n" = "    " ++ "<!-- Custom Styles -->\n" := by decide +kernel
  have hbody : "<body>\n" = "<body>" ++ "\n" := by decide +kernel
  have hscripts : "    <!-- Bootstrap JS Bundle -->\n" = "    " ++ String.ofList scriptsMark ++ "\n" := by
    decide +kernel
  have hblanks : "\n    " = "\n" ++ "    " := by decide +kernel
  unfold document linesToBody bodyPart linesAfterBody linesBeforeTitle linesBeforeVersion linesBeforeMark
    frameworkRoot
  simp only [String.append_assoc, hmark, hbody, hscripts, hblanks]

/-- Nothing before the body looks like the tag that opens it, if the release is written without tags. -/
theorem passes_linesToBody (title : String) (isChild : Bool) {version : String} (h : '<' ∉ version.toList) :
    Passes "<body>".toList (linesToBody title isChild version).toList := by
  have hstart : Passes "<body>".toList linesBeforeTitle.toList := by
    apply passes_of_clash
    unfold linesBeforeTitle
    simp only [String.toList_append]
    decide +kernel
  have htitle : Passes "<body>".toList (escape title).toList :=
    passes_of_not_mem (not_mem_escape rfl title)
  have hbetween : Passes "<body>".toList linesBeforeVersion.toList := by
    apply passes_of_clash
    unfold linesBeforeVersion
    simp only [String.toList_append]
    decide +kernel
  have hversion : Passes "<body>".toList version.toList := passes_of_not_mem h
  have hafter : Passes "<body>".toList linesBeforeMark.toList := passes_of_clash (by decide +kernel)
  have hmark : Passes "<body>".toList "<!-- Custom Styles -->\n".toList :=
    passes_of_clash (by decide +kernel)
  have hlink : Passes "<body>".toList "    <link href=\"".toList := passes_of_clash (by decide +kernel)
  have hsheet : Passes "<body>".toList (stylesheetHref isChild).toList := by
    apply passes_of_clash
    cases isChild <;> decide +kernel
  have hend : Passes "<body>".toList "\" rel=\"stylesheet\">\n".toList := passes_of_clash (by decide +kernel)
  have hhead : Passes "<body>".toList "</head>\n".toList := passes_of_clash (by decide +kernel)
  unfold linesToBody
  simp only [String.toList_append]
  exact ((((((((hstart.append htitle).append hbetween).append hversion).append hafter).append hmark).append
    hlink).append hsheet).append hend).append hhead

/-- Nothing in the body looks like the comment on scripts, if nothing that was put into it does. -/
theorem passes_bodyPart {body : String} (h : Passes scriptsMark body.toList) :
    Passes scriptsMark (bodyPart body).toList := by
  have hopen : Passes scriptsMark "\n    <div class=\"container-fluid p-4\">\n".toList :=
    passes_of_clash (by decide +kernel)
  have hclose : Passes scriptsMark "    </div>\n\n    ".toList := passes_of_clash (by decide +kernel)
  have htext : (bodyPart body).toList = "\n    <div class=\"container-fluid p-4\">\n".toList ++ (body.toList ++
      "    </div>\n\n    ".toList) := by
    simp [bodyPart]
  rw [htext]
  exact hopen.append (h.append hclose)

/-- **The body of a page is what was put into it**, in its container. -/
theorem body_document {body : String} (hbody : Passes scriptsMark body.toList) (title : String)
    (isChild : Bool) {version : String} (h : '<' ∉ version.toList) :
    body? (document body title isChild version) = some (bodyPart body) := by
  have hpage : (document body title isChild version).toList = (linesToBody title isChild version).toList ++
      ("<body>".toList ++ ((bodyPart body).toList ++ (scriptsMark ++ (linesAfterBody version).toList))) := by
    rw [document_eq]
    simp only [String.toList_append, String.toList_ofList, List.append_assoc]
  have hfound : between? "<body>".toList scriptsMark (document body title isChild version).toList =
      some (bodyPart body).toList := by
    rw [hpage]
    exact between?_eq (passes_linesToBody title isChild h) (passes_bodyPart hbody)
  rw [body?, hfound, Option.map_some, String.ofList_toList]

/-- The container around what is put into a page. -/
def containerPiece (content : List Piece) : Piece :=
  .element "div" [("class", "container-fluid p-4")] (content ++ [lineStart "    "])

/-- **The body of a page is read** as the container around what was put into it. -/
theorem read_bodyPart {body : String} {ps : List Piece} (h : ReadsAs body.toList ps) :
    Markup.read (bodyPart body) = some [lineStart "    ", containerPiece ps, .text "\n\n    "] := by
  have hattributes : ∀ a ∈ [("class", "container-fluid p-4")], IsAttribute a := by
    intro a ha
    rw [List.mem_singleton.mp ha]
    exact ⟨by decide, by decide⟩
  have hblock : ReadsAs (blockLines "    " "div" [("class", "container-fluid p-4")] body.toList) _ :=
    h.block (by decide) (by decide) (List.cons_ne_nil _ _) hattributes
  have hlast : '<' ∉ "\n    ".toList := by decide
  have hread := hblock.read hlast
  have htext : bodyPart body = "\n" ++ String.ofList (blockLines "    " "div"
      [("class", "container-fluid p-4")] body.toList) ++ "\n    " := by
    apply String.toList_inj.mp
    simp [bodyPart, blockLines, openingTag, attributeText, closingTag]
  rw [htext, hread]
  rfl

end DesignMarkup.Page
