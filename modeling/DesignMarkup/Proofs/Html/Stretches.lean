import DesignMarkup.Proofs.Html.Lines

/-!
# `Proofs.Html.Stretches` — stretches of markup, read wherever they stand

Pages are put together of lines: tags with attributes, elements with text on one line, and blocks around other
lines. A stretch of whole lines is read as the same pieces wherever it stands, since the scanner comes to it with
the line feed of the line before and leaves it with its own. So what a page is read as follows from what its parts
are read as, and the parts can be looked at one by one.

## Contents

* `attributeText`, `openingTag`, `run_openingTag`: tags with attributes;
* `ReadsAs`, `ReadsAs.append`, `readsAs_flatMap`: **stretches and their readings**;
* `leafLine`, `readsAs_leaf`: an element on a line of its own;
* `blockLines`, `ReadsAs.block`: a block around a stretch;
* `ReadsAs.read`: **a text that is one stretch**.
-/

namespace DesignMarkup.Markup

open Html (closingTag ne_of_mem_word toList_ne_nil_of_word textPiece_lineFeed)

/-! ## Tags with attributes -/

/-- The attributes of a tag as they are written, each after a blank. -/
def attributeText (attributes : List (String × String)) : List Char :=
  attributes.flatMap fun a => ' ' :: (a.1.toList ++ '=' :: '"' :: (a.2.toList ++ ['"']))

/-- An opening tag. -/
def openingTag (tag : String) (attributes : List (String × String)) : List Char :=
  '<' :: (tag.toList ++ (attributeText attributes ++ ['>']))

/-- The name of an attribute is a word, and its value has no double quote. -/
def IsAttribute (a : String × String) : Prop :=
  IsWord a.1 ∧ '"' ∉ a.2.toList

namespace Scanner

variable {u : List Unclosed} {before content : List Piece} {seen rest : List Char} {tag : String}

/-- Attributes are read one after the other. -/
theorem run_attributes {more : List (String × String)} (h : ∀ a ∈ more, IsAttribute a)
    (attributes : List (String × String)) :
    run ⟨u, content, .inside tag attributes⟩ (attributeText more ++ rest) =
      run ⟨u, content, .inside tag (attributes ++ more)⟩ rest := by
  induction more generalizing attributes with
  | nil => simp [attributeText]
  | cons a more ih =>
    obtain ⟨⟨hname, hvalue⟩, hmore⟩ := List.forall_mem_cons.mp h
    have htext : attributeText (a :: more) ++ rest = ' ' :: (a.1.toList ++ '=' :: '"' :: (a.2.toList ++
        '"' :: (attributeText more ++ rest))) := by
      simp [attributeText]
    rw [htext, run_cons (t := ⟨u, content, .inside tag attributes⟩) rfl,
      run_attribute (toList_ne_nil_of_word hname) (ne_of_mem_word hname) hvalue, ih hmore]
    simp

/-- **An opening tag** opens its element, after the text that is pending. -/
theorem run_openingTag (ht : IsWord tag) {attributes : List (String × String)} (hne : attributes ≠ [])
    (h : ∀ a ∈ attributes, IsAttribute a) :
    run ⟨u, before, .text seen⟩ (openingTag tag attributes ++ rest) =
      run ⟨⟨before ++ textPiece seen, tag, attributes⟩ :: u, [], .text []⟩ rest := by
  obtain ⟨a, more, rfl⟩ := List.exists_cons_of_ne_nil hne
  obtain ⟨⟨hname, hvalue⟩, hmore⟩ := List.forall_mem_cons.mp h
  have htext : openingTag tag (a :: more) ++ rest = '<' :: (tag.toList ++ ' ' :: (a.1.toList ++
      '=' :: '"' :: (a.2.toList ++ '"' :: (attributeText more ++ '>' :: rest)))) := by
    simp [openingTag, attributeText]
  -- the blank before the first attribute ends the tag, so only the others come with their own
  rw [htext, run_tag (toList_ne_nil_of_word ht) (ne_of_mem_word ht),
    run_attribute (toList_ne_nil_of_word hname) (ne_of_mem_word hname) hvalue, run_attributes hmore]
  simp only [String.ofList_toList]
  exact run_cons rfl rest

/-- A closing tag closes the element that it names. -/
theorem run_closingTag (ht : IsWord tag) (attributes : List (String × String)) :
    run ⟨⟨before, tag, attributes⟩ :: u, content, .text seen⟩ ((closingTag tag).toList ++ rest) =
      run ⟨u, before ++ [.element tag attributes (content ++ textPiece seen)], .text []⟩ rest := by
  have htext : (closingTag tag).toList ++ rest = '<' :: '/' :: (tag.toList ++ '>' :: rest) := by
    simp [closingTag]
  have hgt : '>' ∉ tag.toList := ht.not_mem (by decide)
  have hclose := @run_closing u content rest tag.toList hgt before attributes seen
  rw [String.ofList_toList] at hclose
  rw [htext, hclose]

end Scanner

/-! ## Stretches and their readings -/

open Scanner

/-- **A stretch of lines is read as these pieces** wherever it stands: after a line feed, and up to its own. -/
def ReadsAs (cs : List Char) (ps : List Piece) : Prop :=
  ∀ (u : List Unclosed) (before : List Piece) (rest : List Char),
    run ⟨u, before, .text ['\n']⟩ (cs ++ rest) = run ⟨u, before ++ ps, .text ['\n']⟩ rest

theorem readsAs_nil : ReadsAs [] [] := by
  intro u before rest
  simp

/-- One stretch after the other. -/
theorem ReadsAs.append {cs ds : List Char} {ps qs : List Piece} (h : ReadsAs cs ps) (h' : ReadsAs ds qs) :
    ReadsAs (cs ++ ds) (ps ++ qs) := by
  intro u before rest
  rw [List.append_assoc, h, h', List.append_assoc]

/-- A stretch for each of several things, one after the other. -/
theorem readsAs_flatMap {α : Type} {write : α → List Char} {read : α → List Piece}
    (h : ∀ a, ReadsAs (write a) (read a)) (as : List α) :
    ReadsAs (as.flatMap write) (as.flatMap read) := by
  induction as with
  | nil => exact readsAs_nil
  | cons a as ih =>
    rw [List.flatMap_cons, List.flatMap_cons]
    exact (h a).append ih

/-! ## Lines -/

/-- What is pending before a line: a line feed and the blanks of the line. -/
def lineStart (blanks : String) : Piece :=
  .text ("\n" ++ blanks)

/-- A line with one element, after blanks. -/
def leafLine (blanks tag : String) (attributes : List (String × String)) (text : String) : List Char :=
  blanks.toList ++ (openingTag tag attributes ++ (text.toList ++ ((closingTag tag).toList ++ ['\n'])))

/-- The lines of a block, with the same blanks before its tags. -/
def blockLines (blanks tag : String) (attributes : List (String × String)) (lines : List Char) : List Char :=
  blanks.toList ++ (openingTag tag attributes ++ '\n' :: (lines ++ (blanks.toList ++
    ((closingTag tag).toList ++ ['\n']))))

section Lines

variable {blanks tag text : String} {attributes : List (String × String)}

/-- **A line with one element** is read as the element, with its text as it stands. -/
theorem readsAs_leaf (hblanks : '<' ∉ blanks.toList) (ht : IsWord tag) (hne : attributes ≠ [])
    (h : ∀ a ∈ attributes, IsAttribute a) (htext : '<' ∉ text.toList) :
    ReadsAs (leafLine blanks tag attributes text)
      [lineStart blanks, .element tag attributes (textPiece text.toList)] := by
  intro u before rest
  simp only [leafLine, List.append_assoc]
  rw [run_text hblanks, run_openingTag ht hne h, run_text htext, run_closingTag ht, List.singleton_append,
    List.singleton_append, Html.textPiece_lineFeed, run_cons (t := ⟨u, _, .text ['\n']⟩) rfl]
  simp [lineStart]

/-- **A block** is read as an element around what its lines are read as. -/
theorem ReadsAs.block {lines : List Char} {ps : List Piece} (hlines : ReadsAs lines ps)
    (hblanks : '<' ∉ blanks.toList) (ht : IsWord tag) (hne : attributes ≠ [])
    (h : ∀ a ∈ attributes, IsAttribute a) :
    ReadsAs (blockLines blanks tag attributes lines)
      [lineStart blanks, .element tag attributes (ps ++ [lineStart blanks])] := by
  intro u before rest
  simp only [blockLines, List.append_assoc, List.cons_append]
  rw [run_text hblanks, run_openingTag ht hne h, run_cons (t := ⟨_, _, .text ['\n']⟩) rfl, hlines,
    run_text hblanks, run_closingTag ht, List.singleton_append, textPiece_lineFeed,
    run_cons (t := ⟨u, _, .text ['\n']⟩) rfl]
  simp [lineStart]

end Lines

/-- **A text that is one stretch**, between a line feed and more text, is read as the pieces of the stretch. -/
theorem ReadsAs.read {lines : List Char} {ps : List Piece} (h : ReadsAs lines ps) {last : String}
    (hlast : '<' ∉ last.toList) :
    Markup.read ("\n" ++ String.ofList lines ++ last) = some (ps ++ [.text ("\n" ++ last)]) := by
  have htext : ("\n" ++ String.ofList lines ++ last).toList = '\n' :: (lines ++ (last.toList ++ [])) := by
    simp
  have hrun : run ⟨[], ps, .text ['\n']⟩ (last.toList ++ []) = run ⟨[], ps, .text ('\n' :: last.toList)⟩ [] :=
    run_text hlast ['\n']
  rw [Markup.read, htext, run_cons (t := ⟨[], [], .text ['\n']⟩) rfl, h, List.nil_append, hrun, run,
    Option.bind_some]
  show some (ps ++ textPiece ('\n' :: last.toList)) = _
  rw [textPiece_lineFeed]

end DesignMarkup.Markup
