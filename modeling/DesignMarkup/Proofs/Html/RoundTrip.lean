import DesignMarkup.Proofs.ClassName
import DesignMarkup.Proofs.Html.Escape
import DesignMarkup.Proofs.Html.Scanner

/-!
# `Proofs.Html.RoundTrip` — written elements are read back

An element whose tags and classes are words is read back as one complete tree: the tag, the classes and
the escaped text as they were written, and the child elements one by one, with the blanks and line feeds
of the layout between them. The scanner gathers the line feed after an element together with the blanks
before the next tag, so the induction over the tree runs with any text pending before an element and
leaves a line feed pending after it.

## Contents

* `Element.IsClean`: tags and classes are words;
* `Element.piece`: what is read of an element;
* `run_render`: the scanner over an element in the midst of others;
* `read_render`: **the reading of an element by itself**.
-/

namespace DesignMarkup.Html

open Markup

/-! ## Clean elements -/

namespace Element

mutual

/-- The tags and the classes of an element and of all elements below it are words. -/
def IsClean : Element → Prop
  | .text tag classes _ => IsWord tag ∧ ∀ c ∈ classes, IsWord c
  | .image classes _ => ∀ c ∈ classes, IsWord c
  | .block tag classes children =>
    IsWord tag ∧ (∀ c ∈ classes, IsWord c) ∧ AllClean children

/-- The elements are clean. -/
def AllClean : List Element → Prop
  | [] => True
  | e :: rest => IsClean e ∧ AllClean rest

end

/-! ## What is read of an element -/

/-- The attribute that holds the classes. -/
def classPair (classes : List String) : String × String :=
  ("class", " ".intercalate classes)

mutual

/-- What is read of an element that is written at a depth. -/
def piece (depth : Int) : Element → Piece
  | .text tag classes content =>
    .element tag [classPair classes] (textPiece (escape content).toList)
  | .image classes alt => .element "img" [classPair classes, ("alt", escape alt)] []
  | .block tag classes children =>
    .element tag [classPair classes]
      (pieces (depth + 1) children ++ [.text ("\n" ++ indent depth)])

/-- What is read of elements on lines of their own. -/
def pieces (depth : Int) : List Element → List Piece
  | [] => []
  | e :: rest => .text ("\n" ++ indent depth) :: piece depth e :: pieces depth rest

end

end Element

/-! ## Parts of an element -/

theorem lt_not_mem_indent (depth : Int) : '<' ∉ (indent depth).toList := by
  rw [indent, String.toList_ofList]
  intro h
  exact absurd (List.eq_of_mem_replicate h) (by decide)

/-- Joined words do not end an attribute. -/
theorem quote_not_mem_join {classes : List String} (h : ∀ c ∈ classes, IsWord c) :
    '"' ∉ (" ".intercalate classes).toList := by
  intro hm
  obtain hs | ⟨c, hc, hm⟩ := mem_intercalate_toList hm
  · exact absurd hs (by decide)
  · exact (h c hc).not_mem (by decide) hm

/-- The characters of a word end no tag and no name. -/
theorem ne_of_mem_word {s : String} (h : IsWord s) :
    ∀ c ∈ s.toList, c ≠ '>' ∧ c ≠ '/' ∧ c ≠ ' ' ∧ c ≠ '=' := by
  intro c hc
  refine ⟨?_, ?_, ?_, ?_⟩
  all_goals
    rintro rfl
    exact h.not_mem (by decide) hc

theorem toList_ne_nil_of_word {s : String} (h : IsWord s) : s.toList ≠ [] := by
  intro he
  exact h.1 (String.toList_inj.mp (he.trans String.toList_empty.symm))

variable {u : List Unclosed} {before : List Piece} {seen rest : List Char}

open Scanner Element

/-- An opening tag, up to what follows its classes. -/
theorem run_opening {tag : String} (ht : IsWord tag) {classes : List String}
    (hc : ∀ c ∈ classes, IsWord c) (depth : Int) :
    run ⟨u, before, .text seen⟩ ((indent depth).toList ++
        '<' :: (tag.toList ++ ((classAttribute classes).toList ++ rest))) =
      run ⟨u, before ++ textPiece (seen ++ (indent depth).toList),
        .inside tag [classPair classes]⟩ rest := by
  have hattr : (classAttribute classes).toList =
      ' ' :: ("class".toList ++ '=' :: '"' :: ((" ".intercalate classes).toList ++ ['"'])) := by
    simp [classAttribute]
  rw [run_text (lt_not_mem_indent depth), hattr, List.cons_append,
    run_tag (toList_ne_nil_of_word ht) (ne_of_mem_word ht), String.ofList_toList]
  simp only [List.append_assoc, List.cons_append, List.nil_append]
  rw [run_attribute (by decide) (ne_of_mem_word (by decide)) (quote_not_mem_join hc), String.ofList_toList,
    String.ofList_toList]
  rfl

/-! ## Elements -/

/-- The lines of an element, character by character. -/
theorem toList_render_text (depth : Int) (tag : String) (classes : List String) (content : String) :
    (Element.render depth (.text tag classes content)).toList =
      (indent depth).toList ++ '<' :: (tag.toList ++ ((classAttribute classes).toList ++
        '>' :: ((escape content).toList ++ '<' :: '/' :: (tag.toList ++ '>' :: ['\n'])))) := by
  simp [Element.render]

theorem toList_render_image (depth : Int) (classes : List String) (alt : String) :
    (Element.render depth (.image classes alt)).toList =
      (indent depth).toList ++ '<' :: ("img".toList ++ ((classAttribute classes).toList ++
        ' ' :: ("alt".toList ++ '=' :: '"' :: ((escape alt).toList ++
          '"' :: [' ', '/', '>', '\n'])))) := by
  simp [Element.render]

theorem toList_render_block (depth : Int) (tag : String) (classes : List String)
    (children : List Element) :
    (Element.render depth (.block tag classes children)).toList =
      (indent depth).toList ++ '<' :: (tag.toList ++ ((classAttribute classes).toList ++
        '>' :: '\n' :: ((Element.renderAll (depth + 1) children).toList ++
          ((indent depth).toList ++ '<' :: '/' :: (tag.toList ++ '>' :: ['\n']))))) := by
  simp [Element.render]

/-- The text between a line feed and a tag. -/
theorem textPiece_lineFeed (s : String) : textPiece ('\n' :: s.toList) = [.text ("\n" ++ s)] := by
  have he : String.ofList ('\n' :: s.toList) = "\n" ++ s := String.toList_inj.mp (by simp)
  rw [textPiece, he]
  rfl

mutual

/-- **The scanner over an element**, with text pending before it and any characters after it: one more
piece, and a line feed pending. -/
theorem run_render (e : Element) (he : e.IsClean) (depth : Int) (u : List Unclosed)
    (before : List Piece) (seen rest : List Char) :
    run ⟨u, before, .text seen⟩ ((e.render depth).toList ++ rest) =
      run ⟨u, before ++ (textPiece (seen ++ (indent depth).toList) ++ [e.piece depth]),
        .text ['\n']⟩ rest := by
  match e, he with
  | .text tag classes content, ⟨ht, hc⟩ =>
    rw [toList_render_text]
    simp only [List.append_assoc, List.cons_append, List.nil_append]
    rw [run_opening ht hc, run_cons (t := enter ⟨u, _, .text []⟩ tag [classPair classes]) rfl, enter,
      run_text (not_mem_escape (by decide) content), List.nil_append]
    have hgt : '>' ∉ tag.toList := ht.not_mem (by decide)
    have hclose := @run_closing u [] ('\n' :: rest) _ hgt
      (before ++ textPiece (seen ++ (indent depth).toList)) [classPair classes] (escape content).toList
    rw [String.ofList_toList] at hclose
    rw [hclose, run_cons (t := ⟨u, _, .text ['\n']⟩) rfl, piece]
    simp only [List.append_assoc, List.nil_append]
  | .image classes alt, hc =>
    -- the tag closes itself, so nothing is opened and the element is complete at once
    rw [toList_render_image]
    simp only [List.append_assoc, List.cons_append, List.nil_append]
    rw [run_opening (by decide) hc, run_cons (t := ⟨u, _, .inside "img" [classPair classes]⟩) rfl,
      run_attribute (by decide) (ne_of_mem_word (by decide)) (not_mem_escape (by decide) alt), String.ofList_toList,
      String.ofList_toList, run_cons (t := ⟨u, _, .inside "img" _⟩) rfl,
      run_cons (t := ⟨u, _, .ending "img" _⟩) rfl, run_cons (t := add ⟨u, _, .text []⟩ "img" _) rfl,
      add, run_cons (t := ⟨u, _, .text ['\n']⟩) rfl, piece]
    simp only [List.append_assoc, List.cons_append, List.nil_append]
  | .block tag classes children, ⟨ht, hc, hall⟩ =>
    rw [toList_render_block]
    simp only [List.append_assoc, List.cons_append, List.nil_append]
    -- the line feed after the opening tag is pending before the first child, and the one after the
    -- last child before the blanks of the closing tag
    rw [run_opening ht hc, run_cons (t := enter ⟨u, _, .text []⟩ tag [classPair classes]) rfl, enter,
      run_cons (t := ⟨_, _, .text ['\n']⟩) rfl, run_renderAll children hall,
      run_text (lt_not_mem_indent depth)]
    have hgt : '>' ∉ tag.toList := ht.not_mem (by decide)
    have hclose := @run_closing u (pieces (depth + 1) children) ('\n' :: rest) _ hgt
      (before ++ textPiece (seen ++ (indent depth).toList)) [classPair classes]
      ('\n' :: (indent depth).toList)
    rw [String.ofList_toList, textPiece_lineFeed] at hclose
    rw [List.nil_append, List.singleton_append, hclose, run_cons (t := ⟨u, _, .text ['\n']⟩) rfl, piece]
    simp only [List.append_assoc]

/-- The scanner over elements on lines of their own. -/
theorem run_renderAll (es : List Element) (hes : AllClean es) (depth : Int) (u : List Unclosed)
    (before : List Piece) (rest : List Char) :
    run ⟨u, before, .text ['\n']⟩ ((renderAll depth es).toList ++ rest) =
      run ⟨u, before ++ pieces depth es, .text ['\n']⟩ rest := by
  match es, hes with
  | [], _ => rw [renderAll, pieces, List.append_nil]; rfl
  | e :: es, ⟨he, hes⟩ =>
    rw [renderAll, String.toList_append, List.append_assoc, run_render e he,
      run_renderAll es hes, pieces, List.singleton_append, textPiece_lineFeed]
    simp only [List.append_assoc, List.cons_append, List.nil_append]

end

/-- **An element is read back as one tree**, with the blanks before it and a line feed after it. -/
theorem read_render (e : Element) (he : e.IsClean) (depth : Int) :
    Markup.read (e.render depth) =
      some (textPiece (indent depth).toList ++ [e.piece depth, .text "\n"]) := by
  have hrun := run_render e he depth [] [] [] []
  rw [List.append_nil, List.nil_append, List.nil_append] at hrun
  rw [Markup.read, start, hrun, run, Option.bind_some]
  show some (textPiece (indent depth).toList ++ [e.piece depth] ++ textPiece ['\n']) = _
  rw [List.append_assoc]
  rfl

end DesignMarkup.Html
