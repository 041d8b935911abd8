import DesignMarkup.Entries
import DesignMarkup.Html

/-!
# `Proofs.Html.Scanner` — markup read back, character by character

A plain scanner of tags, to compare written markup with. It knows nothing of the elements that are
written: `<` begins a tag, a value of an attribute runs to the next double quote, a tag ends at `>`, and
text runs to the next `<`. A closing tag must name the innermost element that is still open, so what is
read at the end is a list of complete trees or nothing.

## Contents

* `Piece` and its views: what is read;
* `Mode`, `Scanner`, `Scanner.step`: the scanner and one step of it;
* `Scanner.run`, `read`: a run, and the reading of a whole text;
* `run_gather`: how a run passes over characters that end nothing; `run_opening`, `run_closing`: tags.
-/

namespace DesignMarkup.Markup

/-! ## What is read -/

/-- Text as it stands, or an element. -/
inductive Piece where
  | text (content : String)
  | element (tag : String) (attributes : List (String × String)) (content : List Piece)

namespace Piece

/-- The piece is an element. -/
def isElement : Piece → Bool
  | .element .. => true
  | .text _ => false

/-- The piece is text of white space. -/
def isBlank : Piece → Bool
  | .text content => content.toList.all Char.isWhitespace
  | .element .. => false

/-- The tag of an element. -/
def tag : Piece → String
  | .element tag _ _ => tag
  | .text _ => ""

/-- What stands between the tags of an element. -/
def content : Piece → List Piece
  | .element _ _ content => content
  | .text _ => []

/-- The value of an attribute. -/
def attribute? (name : String) : Piece → Option String
  | .element _ attributes _ => Entries.get? name attributes
  | .text _ => none

/-- The names of the attributes of an element, in order. -/
def attributeNames : Piece → List String
  | .element _ attributes _ => Entries.keys attributes
  | .text _ => []

/-- The classes of an element: its class attribute, split at the blanks. -/
def classes (p : Piece) : List String :=
  (((p.attribute? "class").getD "").toList.splitOn ' ').map String.ofList

end Piece

/-- The elements among pieces. -/
def elementsOf (pieces : List Piece) : List Piece :=
  pieces.filter Piece.isElement

/-- The text among pieces. -/
def textOf : List Piece → String
  | [] => ""
  | .text content :: rest => content ++ textOf rest
  | .element .. :: rest => textOf rest

/-- Besides elements the pieces are white space only. -/
def OnlyBlanksBeside (pieces : List Piece) : Prop :=
  ∀ p ∈ pieces, p.isElement = false → p.isBlank = true

/-- A text if there is any. -/
def textPiece (seen : List Char) : List Piece :=
  if seen.isEmpty then [] else [.text (String.ofList seen)]

/-! ## The scanner -/

/-- Where the scanner stands. -/
inductive Mode where
  /-- In text. -/
  | text (seen : List Char)
  /-- After `<`. -/
  | opened
  /-- In the name of a closing tag. -/
  | closing (seen : List Char)
  /-- In the name of an opening tag. -/
  | tag (seen : List Char)
  /-- Between attributes. -/
  | inside (tag : String) (attributes : List (String × String))
  /-- In the name of an attribute. -/
  | name (tag : String) (attributes : List (String × String)) (seen : List Char)
  /-- Before the quote that begins a value. -/
  | equals (tag : String) (attributes : List (String × String)) (name : String)
  /-- In a value. -/
  | value (tag : String) (attributes : List (String × String)) (name : String) (seen : List Char)
  /-- After the slash of a tag that closes itself. -/
  | ending (tag : String) (attributes : List (String × String))

/-- An element whose end has not been read, with what was read before it. -/
structure Unclosed where
  before : List Piece
  tag : String
  attributes : List (String × String)

/-- The unclosed elements, the innermost first, and what has been read of the innermost. -/
structure Scanner where
  unclosed : List Unclosed
  content : List Piece
  mode : Mode

namespace Scanner

/-- The scanner before the first character. -/
def start : Scanner :=
  ⟨[], [], .text []⟩

/-- The same place in the tree in another mode. -/
def turn (s : Scanner) (mode : Mode) : Scanner :=
  { s with mode }

/-- An opening tag has ended; what follows is the content of its element. -/
def enter (s : Scanner) (tag : String) (attributes : List (String × String)) : Scanner :=
  ⟨⟨s.content, tag, attributes⟩ :: s.unclosed, [], .text []⟩

/-- A tag that closes itself has ended. -/
def add (s : Scanner) (tag : String) (attributes : List (String × String)) : Scanner :=
  ⟨s.unclosed, s.content ++ [.element tag attributes []], .text []⟩

/-- A closing tag has ended; it must name the innermost unclosed element. -/
def leave (s : Scanner) (tag : String) : Option Scanner :=
  match s.unclosed with
  | [] => none
  | u :: rest =>
    if u.tag = tag then some ⟨rest, u.before ++ [.element u.tag u.attributes s.content], .text []⟩
    else none

/-- **One character.** -/
def step (s : Scanner) (c : Char) : Option Scanner :=
  match s.mode with
  | .text seen =>
    if c = '<' then some ⟨s.unclosed, s.content ++ textPiece seen, .opened⟩
    else some (s.turn (.text (seen ++ [c])))
  | .opened => if c = '/' then some (s.turn (.closing [])) else some (s.turn (.tag [c]))
  | .closing seen =>
    if c = '>' then s.leave (String.ofList seen) else some (s.turn (.closing (seen ++ [c])))
  | .tag seen =>
    if c = '>' then some (s.enter (String.ofList seen) [])
    else if c = '/' then some (s.turn (.ending (String.ofList seen) []))
    else if c = ' ' then some (s.turn (.inside (String.ofList seen) []))
    else some (s.turn (.tag (seen ++ [c])))
  | .inside tag attributes =>
    if c = '>' then some (s.enter tag attributes)
    else if c = '/' then some (s.turn (.ending tag attributes))
    else if c = ' ' then some s
    else some (s.turn (.name tag attributes [c]))
  | .name tag attributes seen =>
    if c = '=' then some (s.turn (.equals tag attributes (String.ofList seen)))
    else some (s.turn (.name tag attributes (seen ++ [c])))
  | .equals tag attributes name =>
    if c = '"' then some (s.turn (.value tag attributes name [])) else none
  | .value tag attributes name seen =>
    if c = '"' then some (s.turn (.inside tag (attributes ++ [(name, String.ofList seen)])))
    else some (s.turn (.value tag attributes name (seen ++ [c])))
  | .ending tag attributes => if c = '>' then some (s.add tag attributes) else none

/-- A run over several characters. -/
def run (s : Scanner) : List Char → Option Scanner
  | [] => some s
  | c :: cs => (s.step c).bind fun t => t.run cs

/-- What was read, if no tag and no element is left open. -/
def finish (s : Scanner) : Option (List Piece) :=
  match s.unclosed, s.mode with
  | [], .text seen => some (s.content ++ textPiece seen)
  | _, _ => none

end Scanner

/-- **The reading of a text**: a list of complete trees, or nothing if its tags do not balance. -/
def read (s : String) : Option (List Piece) :=
  (Scanner.start.run s.toList).bind Scanner.finish

/-! ## Runs -/

namespace Scanner

variable {u : List Unclosed} {content : List Piece} {rest : List Char}

theorem run_cons {s t : Scanner} {c : Char} (h : s.step c = some t) (cs : List Char) :
    s.run (c :: cs) = t.run cs := by
  rw [run, h, Option.bind_some]

/-- **Characters that end nothing are gathered.** A mode that keeps each of some characters passes over
them all. -/
theorem run_gather (mode : List Char → Mode) {cs : List Char}
    (h : ∀ c ∈ cs, ∀ seen, step ⟨u, content, mode seen⟩ c = some ⟨u, content, mode (seen ++ [c])⟩) :
    ∀ seen, run ⟨u, content, mode seen⟩ (cs ++ rest) = run ⟨u, content, mode (seen ++ cs)⟩ rest := by
  -- what is pending grows at each step, so the induction is for every pending text
  induction cs with
  | nil => intro seen; rw [List.append_nil, List.nil_append]
  | cons c cs ih =>
    intro seen
    rw [List.cons_append, run_cons (h c List.mem_cons_self seen),
      ih (fun d hd => h d (List.mem_cons_of_mem c hd)), List.append_assoc, List.singleton_append]

/-- Text is gathered up to the next `<`. -/
theorem run_text {cs : List Char} (h : '<' ∉ cs) (seen : List Char) :
    run ⟨u, content, .text seen⟩ (cs ++ rest) = run ⟨u, content, .text (seen ++ cs)⟩ rest := by
  refine run_gather .text ?_ seen
  intro c hc seen
  have hne : c ≠ '<' := fun he => h (he ▸ hc)
  simp only [step, if_neg hne, turn]

/-- A value is gathered up to the next double quote. -/
theorem run_value {cs : List Char} (h : '"' ∉ cs) (tag : String)
    (attributes : List (String × String)) (name : String) (seen : List Char) :
    run ⟨u, content, .value tag attributes name seen⟩ (cs ++ '"' :: rest) =
      run ⟨u, content, .inside tag (attributes ++ [(name, String.ofList (seen ++ cs))])⟩ rest := by
  rw [run_gather (.value tag attributes name) ?_ seen]
  · exact run_cons (by simp only [step, if_pos, turn]) rest
  · intro c hc seen
    have hne : c ≠ '"' := fun he => h (he ▸ hc)
    simp only [step, if_neg hne, turn]

/-- A tag from `<` to the blank before its attributes. -/
theorem run_tag {tag : List Char} (hne : tag ≠ [])
    (h : ∀ c ∈ tag, c ≠ '>' ∧ c ≠ '/' ∧ c ≠ ' ' ∧ c ≠ '=') (seen : List Char) :
    run ⟨u, content, .text seen⟩ ('<' :: (tag ++ ' ' :: rest)) =
      run ⟨u, content ++ textPiece seen, .inside (String.ofList tag) []⟩ rest := by
  -- the first character is read in a mode of its own, where only a slash would matter
  obtain ⟨c, cs, rfl⟩ : ∃ c cs, tag = c :: cs := List.exists_cons_of_ne_nil hne
  rw [run_cons (t := ⟨u, content ++ textPiece seen, .opened⟩) rfl]
  have hc := h c List.mem_cons_self
  rw [List.cons_append,
    run_cons (t := ⟨u, content ++ textPiece seen, .tag [c]⟩) (by simp only [step, if_neg hc.2.1, turn]),
    run_gather .tag ?_ [c]]
  · exact run_cons (by simp [step, turn]) rest
  · intro d hd seen
    obtain ⟨hgt, hslash, hblank, -⟩ := h d (List.mem_cons_of_mem c hd)
    simp only [step, if_neg hgt, if_neg hslash, if_neg hblank, turn]

/-- An attribute from its name to its closing quote. -/
theorem run_attribute {name value : List Char} (hne : name ≠ [])
    (h : ∀ c ∈ name, c ≠ '>' ∧ c ≠ '/' ∧ c ≠ ' ' ∧ c ≠ '=') (hv : '"' ∉ value) (tag : String)
    (attributes : List (String × String)) :
    run ⟨u, content, .inside tag attributes⟩ (name ++ '=' :: '"' :: (value ++ '"' :: rest)) =
      run ⟨u, content, .inside tag (attributes ++ [(String.ofList name, String.ofList value)])⟩
        rest := by
  -- here too, where it must not be taken for a blank or for the end of the tag
  obtain ⟨c, cs, rfl⟩ : ∃ c cs, name = c :: cs := List.exists_cons_of_ne_nil hne
  obtain ⟨hgt, hslash, hblank, -⟩ := h c List.mem_cons_self
  rw [List.cons_append,
    run_cons (t := ⟨u, content, .name tag attributes [c]⟩)
      (by simp only [step, if_neg hgt, if_neg hslash, if_neg hblank, turn]),
    run_gather (.name tag attributes) ?_ [c]]
  · rw [run_cons (t := ⟨u, content, .equals tag attributes (String.ofList (c :: cs))⟩) rfl,
      run_cons (t := ⟨u, content, .value tag attributes (String.ofList (c :: cs)) []⟩) rfl]
    exact run_value hv tag attributes (String.ofList (c :: cs)) []
  · intro d hd seen
    have heq := (h d (List.mem_cons_of_mem c hd)).2.2.2
    simp only [step, if_neg heq, turn]

/-- **A closing tag** completes the innermost element that it names. -/
theorem run_closing {tag : List Char} (h : '>' ∉ tag) (before : List Piece)
    (attributes : List (String × String)) (seen : List Char) :
    run ⟨⟨before, String.ofList tag, attributes⟩ :: u, content, .text seen⟩
        ('<' :: '/' :: (tag ++ '>' :: rest)) =
      run ⟨u, before ++ [.element (String.ofList tag) attributes (content ++ textPiece seen)],
        .text []⟩ rest := by
  rw [run_cons (t := ⟨⟨before, String.ofList tag, attributes⟩ :: u, content ++ textPiece seen, .opened⟩)
      rfl,
    run_cons (t := ⟨⟨before, String.ofList tag, attributes⟩ :: u, content ++ textPiece seen,
      .closing []⟩) rfl,
    run_gather .closing ?_ []]
  · exact run_cons (by simp [step, leave]) rest
  · intro c hc seen
    have hne : c ≠ '>' := fun he => h (he ▸ hc)
    simp only [step, if_neg hne, turn]

end Scanner

end DesignMarkup.Markup
