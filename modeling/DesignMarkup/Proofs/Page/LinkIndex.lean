import DesignMarkup.Proofs.Conversion.Catalogue
import DesignMarkup.Proofs.Page.Parts

/-!
# `Proofs.Page.LinkIndex` — the link index, read back

A link index shows three texts for each page that it leads to: the file as the value of an attribute, the name in a
heading and the id after a word of its own. Each of them is escaped where it stands, so a scanner of tags that reads
the entities finds exactly the links that were written, one by one and in order, however the texts look. The same
holds of the heading of the page and of its title.

## Contents

* `Link.piece`, `Link.readsAs_render`: what a link is read as;
* `indexPieces`, `readsAs_indexBody`, `passes_indexBody`: **what the body of an index is read as**;
* `link?`, `links?`, `headings`, `groups`, `ShowsIndex`: the links and the headings that pieces show;
* `showsIndex`: the pieces of an index show it;
* `linkIndex_read_back`: **an index shows its links and nothing else**.
-/

namespace DesignMarkup.Page

open Html Markup

/-! ## What a link is read as -/

/-- An attribute without double quotes. -/
theorem isAttribute {name value : String} (hname : IsWord name) (hvalue : '"' ∉ value.toList) :
    IsAttribute (name, value) :=
  ⟨hname, hvalue⟩

/-- The attributes of an element that has classes only. -/
theorem isAttribute_class (classes : String) (h : '"' ∉ classes.toList) :
    ∀ a ∈ [("class", classes)], IsAttribute a := by
  intro a ha
  rw [List.mem_singleton.mp ha]
  exact isAttribute (by decide) h

namespace Link

/-- The attributes of a link. -/
def attributes (l : Link) : List (String × String) :=
  [("href", escape l.fileName), ("class", "list-group-item list-group-item-action")]

/-- The text of the line about the id of a page. -/
def note (l : Link) : String :=
  "ID: " ++ escape l.id

/-- The pieces within a link. -/
def content (l : Link) : List Piece :=
  [lineStart "                ", .element "h5" [("class", "mb-1")] (textPiece (escape l.name).toList),
    lineStart "                ", .element "p" [("class", "mb-1 text-muted")] (textPiece l.note.toList),
    lineStart "            "]

/-- The pieces of a link. -/
def pieces (l : Link) : List Piece :=
  [lineStart "            ", .element "a" l.attributes l.content]

/-- The note about an id is text. -/
theorem lt_not_mem_note (l : Link) : '<' ∉ l.note.toList := by
  intro hmem
  rw [note, String.toList_append, List.mem_append] at hmem
  rcases hmem with hword | hid
  · exact absurd hword (by decide)
  · exact not_mem_escape rfl l.id hid

/-- The parts of the opening tag of a link. -/
theorem openingTag_attributes (l : Link) : openingTag "a" l.attributes =
    "<a href=\"".toList ++ ((escape l.fileName).toList ++
      "\" class=\"list-group-item list-group-item-action\">".toList) := by
  have hclasses : "\" class=\"list-group-item list-group-item-action\">".toList = '"' :: ' ' ::
      ("class".toList ++ '=' :: '"' :: ("list-group-item list-group-item-action".toList ++ ['"', '>'])) := by
    decide +kernel
  have hopen : "<a href=\"".toList = '<' :: ("a".toList ++ ' ' :: ("href".toList ++ ['=', '"'])) := by
    decide +kernel
  simp only [openingTag, attributeText, attributes, List.flatMap_cons, List.flatMap_nil, hclasses, hopen,
    List.append_assoc, List.cons_append, List.nil_append, List.append_nil]

/-- The line of the heading of a link. -/
theorem headingLine (s : String) : leafLine "                " "h5" [("class", "mb-1")] s =
    "                <h5 class=\"mb-1\">".toList ++ (s.toList ++ "</h5>\n".toList) := by
  simp [leafLine, openingTag, attributeText, closingTag]

/-- The line of the note about an id. -/
theorem noteLine (s : String) : leafLine "                " "p" [("class", "mb-1 text-muted")] ("ID: " ++ s) =
    "                <p class=\"mb-1 text-muted\">ID: ".toList ++ (s.toList ++ "</p>\n".toList) := by
  have hopen : "                <p class=\"mb-1 text-muted\">ID: ".toList = "                ".toList ++ '<' ::
      ("p".toList ++ ' ' :: ("class".toList ++ '=' :: '"' :: ("mb-1 text-muted".toList ++ '"' :: '>' ::
        "ID: ".toList))) := by
    decide +kernel
  have hclose : "</p>\n".toList = (closingTag "p").toList ++ ['\n'] := by decide +kernel
  simp only [leafLine, openingTag, attributeText, List.flatMap_cons, List.flatMap_nil, hopen, hclose,
    String.toList_append, List.append_assoc, List.cons_append, List.nil_append]

/-- A link as the lines of a block. -/
theorem toList_render (l : Link) : l.render.toList =
    blockLines "            " "a" l.attributes
      (leafLine "                " "h5" [("class", "mb-1")] (escape l.name) ++
        leafLine "                " "p" [("class", "mb-1 text-muted")] l.note) := by
  have hopen : "            <a href=\"".toList = "            ".toList ++ "<a href=\"".toList := by decide +kernel
  have hclasses : "\" class=\"list-group-item list-group-item-action\">\n".toList =
      "\" class=\"list-group-item list-group-item-action\">".toList ++ ['\n'] := by decide +kernel
  have hend : "            </a>\n".toList = "            ".toList ++ ((closingTag "a").toList ++ ['\n']) := by
    decide +kernel
  unfold note render blockLines
  simp only [headingLine, noteLine, openingTag_attributes]
  simp only [String.toList_append, hopen, hclasses, hend, List.append_assoc, List.cons_append, List.nil_append]

/-- **A link is read as one element**, whatever its texts are. -/
theorem readsAs_render (l : Link) : ReadsAs l.render.toList l.pieces := by
  have hattributes : ∀ a ∈ l.attributes, IsAttribute a := by
    intro a ha
    simp only [attributes, List.mem_cons, List.not_mem_nil, or_false] at ha
    rcases ha with rfl | rfl
    · exact isAttribute (by decide) (not_mem_escape rfl l.fileName)
    · exact isAttribute (by decide) (by decide)
  have hheading : ReadsAs (leafLine "                " "h5" [("class", "mb-1")] (escape l.name)) _ :=
    readsAs_leaf (by decide) (by decide) (List.cons_ne_nil _ _) (isAttribute_class "mb-1" (by decide))
      (not_mem_escape rfl l.name)
  have hnote : ReadsAs (leafLine "                " "p" [("class", "mb-1 text-muted")] l.note) _ :=
    readsAs_leaf (by decide) (by decide) (List.cons_ne_nil _ _) (isAttribute_class "mb-1 text-muted" (by decide))
      l.lt_not_mem_note
  rw [toList_render]
  exact (hheading.append hnote).block (by decide) (by decide) (List.cons_ne_nil _ _) hattributes

/-- Nothing in a link looks like the comment on scripts. -/
theorem passes_render (l : Link) : Passes scriptsMark l.render.toList := by
  have htext : ∀ s, Passes scriptsMark (escape s).toList := fun s =>
    passes_of_not_mem (not_mem_escape rfl s)
  have hopen : Passes scriptsMark "            <a href=\"".toList := passes_of_clash (by decide +kernel)
  have hclasses : Passes scriptsMark "\" class=\"list-group-item list-group-item-action\">\n".toList :=
    passes_of_clash (by decide +kernel)
  have hheading : Passes scriptsMark "                <h5 class=\"mb-1\">".toList :=
    passes_of_clash (by decide +kernel)
  have hheadingEnd : Passes scriptsMark "</h5>\n".toList := passes_of_clash (by decide +kernel)
  have hnote : Passes scriptsMark "                <p class=\"mb-1 text-muted\">ID: ".toList :=
    passes_of_clash (by decide +kernel)
  have hnoteEnd : Passes scriptsMark "</p>\n".toList := passes_of_clash (by decide +kernel)
  have hend : Passes scriptsMark "            </a>\n".toList := passes_of_clash (by decide +kernel)
  unfold render
  simp only [String.toList_append]
  exact (((((((((hopen.append (htext _)).append hclasses).append hheading).append (htext _)).append
    hheadingEnd).append hnote).append (htext _)).append hnoteEnd).append hend)

end Link

/-! ## What the body of an index is read as -/

/-- The text of the heading of an index. -/
def headingText (frameName : Argument) : String :=
  "Frame: " ++ escape frameName.characters

/-- The pieces of an index: its heading, and the group of its links. -/
def indexPieces (frameName : Argument) (links : List Link) : List Piece :=
  [lineStart "        ", .element "h1" [("class", "mb-4")] (textPiece (headingText frameName).toList),
    lineStart "        ", .element "div" [("class", "list-group")]
      (links.flatMap Link.pieces ++ [lineStart "        "])]

/-- The links of an index as they are written. -/
theorem toList_links (links : List Link) :
    (String.join (links.map Link.render)).toList = links.flatMap fun l => l.render.toList := by
  rw [String.toList_join, List.flatMap_map]

/-- An index as lines. -/
theorem toList_indexBody (frameName : Argument) (links : List Link) :
    (indexBody frameName links).toList =
      leafLine "        " "h1" [("class", "mb-4")] (headingText frameName) ++
        blockLines "        " "div" [("class", "list-group")] (links.flatMap fun l => l.render.toList) := by
  unfold indexBody
  rw [String.toList_append, String.toList_append, toList_links]
  simp [blockLines, leafLine, openingTag, attributeText, headingText, closingTag]

/-- **The body of an index is read** as its heading and its links. -/
theorem readsAs_indexBody (frameName : Argument) (links : List Link) :
    ReadsAs (indexBody frameName links).toList (indexPieces frameName links) := by
  have htext : '<' ∉ (headingText frameName).toList := by
    intro hmem
    rw [headingText, String.toList_append, List.mem_append] at hmem
    rcases hmem with hword | hname
    · exact absurd hword (by decide)
    · exact not_mem_escape rfl _ hname
  have hheading : ReadsAs (leafLine "        " "h1" [("class", "mb-4")] (headingText frameName)) _ :=
    readsAs_leaf (by decide) (by decide) (List.cons_ne_nil _ _) (isAttribute_class "mb-4" (by decide)) htext
  have hgroup : ReadsAs (blockLines "        " "div" [("class", "list-group")]
      (links.flatMap fun l => l.render.toList)) _ :=
    (readsAs_flatMap Link.readsAs_render links).block (by decide) (by decide) (List.cons_ne_nil _ _)
      (isAttribute_class "list-group" (by decide))
  rw [toList_indexBody]
  exact hheading.append hgroup

/-- Nothing in an index looks like the comment on scripts. -/
theorem passes_indexBody (frameName : Argument) (links : List Link) :
    Passes scriptsMark (indexBody frameName links).toList := by
  have hlinks : Passes scriptsMark (links.flatMap fun l => l.render.toList) := by
    induction links with
    | nil => exact passes_of_clash rfl
    | cons l links ih =>
      rw [List.flatMap_cons]
      exact l.passes_render.append ih
  have hheading : Passes scriptsMark "        <h1 class=\"mb-4\">Frame: ".toList :=
    passes_of_clash (by decide +kernel)
  have hname : Passes scriptsMark (escape frameName.characters).toList :=
    passes_of_not_mem (not_mem_escape rfl _)
  have hheadingEnd : Passes scriptsMark "</h1>\n".toList := passes_of_clash (by decide +kernel)
  have hgroup : Passes scriptsMark "        <div class=\"list-group\">\n".toList :=
    passes_of_clash (by decide +kernel)
  have hend : Passes scriptsMark "        </div>\n".toList := passes_of_clash (by decide +kernel)
  unfold indexBody
  simp only [String.toList_append, toList_links]
  exact ((((hheading.append hname).append hheadingEnd).append hgroup).append hlinks).append hend

/-! ## The links and the headings that pieces show -/

/-- The text between the tags of an element, with its entities read. -/
def shownText (p : Piece) : String :=
  unescapeText (textOf p.content)

/-- The id that the text of a note tells. -/
def noted? (text : String) : Option String :=
  (text.toList.dropPrefix? "ID: ".toList).map String.ofList

/-- **The link that an element shows**: where it leads, its heading, and what its note tells after `ID: `. -/
def link? (p : Piece) : Option Link :=
  match p.attribute? "href", elementsOf p.content with
  | some reference, [heading, note] =>
    if heading.tag = "h5" ∧ note.tag = "p" then
      (noted? (shownText note)).map fun id => ⟨shownText heading, id, unescapeText reference⟩
    else none
  | _, _ => none

/-- **The links among pieces**, at any depth and in document order, if every one can be read. -/
def links? (ps : List Piece) : Option (List Link) :=
  ((elementsBelow ps).filter fun p => p.tag == "a").mapM link?

/-- The texts of the main headings among pieces, at any depth and in document order. -/
def headings (ps : List Piece) : List String :=
  ((elementsBelow ps).filter fun p => p.tag == "h1").map shownText

/-- The groups of links among pieces, at any depth and in document order. -/
def groups (ps : List Piece) : List Piece :=
  (elementsBelow ps).filter fun p => p.classes.contains "list-group"

/-- **Pieces show an index**: one heading, which names the frame, one group, which has exactly these links, and no
links besides. -/
structure ShowsIndex (frameName : String) (links : List Link) (ps : List Piece) : Prop where
  headings : Page.headings ps = ["Frame: " ++ frameName]
  group : ∃ g, groups ps = [g] ∧ links? g.content = some links
  links : links? ps = some links

/-- **Text of which the entities are read** is what was escaped, after a word without entities. -/
theorem shownText_escape (tag : String) (attributes : List (String × String)) (word : String)
    (hword : '&' ∉ word.toList) (s : String) :
    shownText (.element tag attributes (textPiece (word ++ escape s).toList)) = word ++ s := by
  have hread : ∀ cs : List Char, '&' ∉ cs → ∀ rest, unescape (cs ++ rest) = cs ++ unescape rest := by
    intro cs
    induction cs with
    | nil => exact fun _ _ => rfl
    | cons c cs ih =>
      intro hmem rest
      obtain ⟨hne, hmem⟩ := not_or.mp fun h => hmem (List.mem_cons.mpr h)
      rw [List.cons_append, unescape_cons (Ne.symm hne), ih hmem, List.cons_append]
  apply String.toList_inj.mp
  show (unescapeText (textOf (textPiece (word ++ escape s).toList))).toList = _
  rw [textOf_textPiece, unescapeText, String.toList_ofList, String.toList_append, hread _ hword,
    toList_escape, unescape_flatMap_escapeChar, String.toList_append]

/-- A note about an id tells the id. -/
theorem noted?_append (id : String) : noted? ("ID: " ++ id) = some id := by
  rw [noted?, String.toList_append, List.dropPrefix?_append_of_beq _ (beq_self_eq_true _), Option.map_some,
    String.ofList_toList]

/-- **The element of a link shows the link.** -/
theorem link?_piece (l : Link) : link? (.element "a" l.attributes l.content) = some l := by
  have hreference : (Piece.element "a" l.attributes l.content).attribute? "href" = some (escape l.fileName) := rfl
  have hparts : elementsOf (Piece.element "a" l.attributes l.content).content =
      [.element "h5" [("class", "mb-1")] (textPiece (escape l.name).toList),
        .element "p" [("class", "mb-1 text-muted")] (textPiece l.note.toList)] := rfl
  have hname : shownText (.element "h5" [("class", "mb-1")] (textPiece (escape l.name).toList)) = l.name := by
    show unescapeText (textOf (textPiece (escape l.name).toList)) = l.name
    rw [textOf_textPiece, unescapeText_escape]
  have hid : shownText (.element "p" [("class", "mb-1 text-muted")] (textPiece l.note.toList)) = "ID: " ++ l.id :=
    shownText_escape "p" [("class", "mb-1 text-muted")] "ID: " (by decide) l.id
  simp only [link?, hreference, hparts, Piece.tag, and_self, if_true, hname, hid, noted?_append,
    unescapeText_escape, Option.map_some]

/-! ## What the body of an index shows -/

theorem elementsBelow_append (ps qs : List Piece) :
    elementsBelow (ps ++ qs) = elementsBelow ps ++ elementsBelow qs := by
  induction ps with
  | nil => rfl
  | cons p ps ih => rw [List.cons_append, elementsBelow, elementsBelow, ih, List.append_assoc]

/-- Text has no elements. -/
theorem elementsBelow_textPiece (cs : List Char) : elementsBelow (textPiece cs) = [] := by
  rw [← elementsBelow_elementsOf, elementsOf_textPiece, elementsBelow]

/-- The elements of a link: the link, its heading and its note. -/
def Link.elements (l : Link) : List Piece :=
  [.element "a" l.attributes l.content,
    .element "h5" [("class", "mb-1")] (textPiece (escape l.name).toList),
    .element "p" [("class", "mb-1 text-muted")] (textPiece l.note.toList)]

theorem elementsBelow_link (l : Link) : elementsBelow l.pieces = l.elements := by
  simp only [Link.pieces, Link.content, Link.elements, elementsBelow, Piece.elements, lineStart,
    elementsBelow_textPiece, List.nil_append, List.append_nil, List.singleton_append]

/-- The elements of a group are the elements of its links. -/
theorem elementsBelow_group (links : List Link) (blanks : String) :
    elementsBelow (links.flatMap Link.pieces ++ [lineStart blanks]) = links.flatMap Link.elements := by
  rw [elementsBelow_append]
  induction links with
  | nil => rfl
  | cons l links ih =>
    rw [List.flatMap_cons, List.flatMap_cons, elementsBelow_append, elementsBelow_link, List.append_assoc, ih]

/-- **The elements of the page of an index**: its container, its heading, the group, and those of the links. -/
theorem elementsBelow_index (frameName : Argument) (links : List Link) :
    elementsBelow [lineStart "    ", containerPiece (indexPieces frameName links), .text "\n\n    "] =
      containerPiece (indexPieces frameName links) ::
        .element "h1" [("class", "mb-4")] (textPiece (headingText frameName).toList) ::
        .element "div" [("class", "list-group")] (links.flatMap Link.pieces ++ [lineStart "        "]) ::
        links.flatMap Link.elements := by
  simp only [containerPiece, indexPieces, elementsBelow, Piece.elements, lineStart, List.cons_append,
    elementsBelow_textPiece, List.nil_append, List.append_nil]
  have h := elementsBelow_group links "        "
  rw [lineStart] at h
  rw [h]

/-- Exactly the elements that a link stands for are links, and each shows its own. -/
theorem mapM_link? (links : List Link) :
    ((links.flatMap Link.elements).filter fun p => p.tag == "a").mapM link? = some links := by
  induction links with
  | nil => rfl
  | cons l links ih =>
    have hlinks : l.elements.filter (fun p => p.tag == "a") = [.element "a" l.attributes l.content] := rfl
    rw [List.flatMap_cons, List.filter_append, hlinks, List.singleton_append, List.mapM_cons, link?_piece, ih]
    rfl

/-- No element of a link is a heading of the page. -/
theorem filter_heading_links (links : List Link) :
    (links.flatMap Link.elements).filter (fun p => p.tag == "h1") = [] := by
  rw [List.filter_flatMap]
  exact List.flatMap_eq_nil_iff.mpr fun l _ => rfl

/-- No element of a link is a group. -/
theorem filter_group_links (links : List Link) :
    (links.flatMap Link.elements).filter (fun p => p.classes.contains "list-group") = [] := by
  have hitem : (("list-group-item list-group-item-action".toList.splitOn ' ').map String.ofList).contains
      "list-group" = false := by decide +kernel
  have hheading : (("mb-1".toList.splitOn ' ').map String.ofList).contains "list-group" = false := by
    decide +kernel
  have hnote : (("mb-1 text-muted".toList.splitOn ' ').map String.ofList).contains "list-group" = false := by
    decide +kernel
  rw [List.filter_flatMap]
  refine List.flatMap_eq_nil_iff.mpr fun l _ => List.filter_eq_nil_iff.mpr fun p hp => ?_
  rw [Bool.not_eq_true]
  simp only [Link.elements, List.mem_cons, List.not_mem_nil, or_false] at hp
  rcases hp with rfl | rfl | rfl
  · exact hitem
  · exact hheading
  · exact hnote

/-- **The page of an index shows its links** and nothing else. -/
theorem showsIndex (frameName : Argument) (links : List Link) : ShowsIndex frameName.characters links
    [lineStart "    ", containerPiece (indexPieces frameName links), .text "\n\n    "] where
  headings := by
    rw [headings, elementsBelow_index]
    show List.map shownText (_ :: (links.flatMap Link.elements).filter _) = _
    rw [filter_heading_links, List.map_singleton, headingText, shownText_escape _ _ _ (by decide)]
  group := by
    refine ⟨.element "div" [("class", "list-group")] (links.flatMap Link.pieces ++ [lineStart "        "]), ?_, ?_⟩
    · have hcontainer : (("container-fluid p-4".toList.splitOn ' ').map String.ofList).contains "list-group" =
          false := by decide +kernel
      have hheading : (("mb-4".toList.splitOn ' ').map String.ofList).contains "list-group" = false := by
        decide +kernel
      have hgroup : (("list-group".toList.splitOn ' ').map String.ofList).contains "list-group" = true := by
        decide +kernel
      rw [groups, elementsBelow_index, List.filter_cons_of_neg, List.filter_cons_of_neg, List.filter_cons_of_pos,
        filter_group_links]
      · exact hgroup
      · rw [Bool.not_eq_true]
        exact hheading
      · rw [Bool.not_eq_true]
        exact hcontainer
    · show links? (links.flatMap Link.pieces ++ [lineStart "        "]) = some links
      rw [links?, elementsBelow_group, mapM_link?]
  links := by
    rw [links?, elementsBelow_index]
    exact mapM_link? links

/-- The body of an index, read. -/
theorem read_index (frameName : Argument) (links : List Link) :
    ∃ ps, Markup.read (bodyPart (indexBody frameName links)) = some ps ∧
      ShowsIndex frameName.characters links ps :=
  ⟨_, read_bodyPart (readsAs_indexBody frameName links), showsIndex frameName links⟩

/-- The body of an index is found in its page. -/
theorem body_linkIndex (frameName : Argument) (links : List Link) {version : String} (h : '<' ∉ version.toList) :
    body? (linkIndex frameName links version) = some (bodyPart (indexBody frameName links)) :=
  body_document (passes_indexBody frameName links) _ true h

/-- **An index shows its links and nothing else**: its title and its one heading name the frame, and its body, which
is found if the release of the style framework is written without tags, shows one link for each page, in order, with
the file, the name and the id as they were given. -/
theorem linkIndex_read_back (frameName : String) (links : List Link) (version : String) :
    title? (linkIndex (.text frameName) links version) = some ("Frame: " ++ frameName) ∧
    linkIndex (.text frameName) links version = linesToBody ("Frame: " ++ frameName) true version ++ "<body>" ++
      bodyPart (indexBody (.text frameName) links) ++ String.ofList scriptsMark ++ linesAfterBody version ∧
    ('<' ∉ version.toList →
      body? (linkIndex (.text frameName) links version) = some (bodyPart (indexBody (.text frameName) links))) ∧
    ∃ ps, Markup.read (bodyPart (indexBody (.text frameName) links)) = some ps ∧ ShowsIndex frameName links ps := by
  refine ⟨?_, ?_, ?_, ?_⟩
  · exact title_document _ _ true version
  · exact document_eq _ _ true version
  · intro h
    exact body_linkIndex (.text frameName) links h
  · exact read_index (.text frameName) links

/-- Texts that look like tags, attributes and entities are shown as they are. -/
theorem linkIndex_read_back_markup :
    body? (linkIndex (.text "</h1><a href=\"x\">") [⟨"</h5></a>", "&quot;</p>", "\"><a href=\".html"⟩] "5.3.0") =
        some (bodyPart (indexBody (.text "</h1><a href=\"x\">")
          [⟨"</h5></a>", "&quot;</p>", "\"><a href=\".html"⟩])) ∧
      ∃ ps, Markup.read (bodyPart (indexBody (.text "</h1><a href=\"x\">")
          [⟨"</h5></a>", "&quot;</p>", "\"><a href=\".html"⟩])) = some ps ∧
        links? ps = some [⟨"</h5></a>", "&quot;</p>", "\"><a href=\".html"⟩] := by
  obtain ⟨-, -, hbody, ps, hread, hshows⟩ := linkIndex_read_back "</h1><a href=\"x\">"
    [⟨"</h5></a>", "&quot;</p>", "\"><a href=\".html"⟩] "5.3.0"
  exact ⟨hbody (by decide), ps, hread, hshows.links⟩

end DesignMarkup.Page
