import DesignMarkup.Proofs.Html.RoundTrip

/-!
# `Proofs.Html.Lines` — the lines of an element

What is written of an element is a list of lines, each with a level below the element, a text without the
blanks before it, and a line feed after it. The depth at which the element is written only decides how many
blanks stand before the lines, so it is gone once the blanks are taken off, also from the further lines
that a text with line feeds breaks into. Without such texts the lines that are read off are these lines.

## Contents

* `linesOf`, `unindented`: the lines of a text, and the lines without the blanks before them;
* `Element.lines`, `Element.toList_render`: **the lines of an element**, and how they are written;
* `unindented_render`: **lines without their blanks do not tell the depth**;
* `linesOf_render`: lines of texts without line feeds are read as they are.
-/

namespace DesignMarkup.Html

/-! ## The lines of a text -/

/-- The lines of a text: what stands between its line feeds, before the first and after the last. -/
def linesOf (s : String) : List String :=
  (s.toList.splitOn '\n').map String.ofList

/-- A line without the blanks before it. -/
def withoutBlanks (cs : List Char) : List Char :=
  cs.dropWhile (· == ' ')

/-- **The lines of a text without the blanks before them.** -/
def unindented (s : String) : List String :=
  (s.toList.splitOn '\n').map (String.ofList ∘ withoutBlanks)

theorem splitOn_append_lineFeed (cs ds : List Char) :
    (cs ++ '\n' :: ds).splitOn '\n' = cs.splitOn '\n' ++ ds.splitOn '\n' := by
  simp only [List.splitOn_eq_splitOnP]
  exact List.splitOnP_append_cons cs ds rfl

theorem splitOn_of_not_mem {cs : List Char} (h : '\n' ∉ cs) : cs.splitOn '\n' = [cs] := by
  rw [List.splitOn_eq_splitOnP]
  refine List.splitOnP_eq_singleton fun c hc => ?_
  rw [beq_eq_false_iff_ne]
  rintro rfl
  exact h hc

/-- Blanks before a text are blanks before its first line. -/
theorem map_splitOn_blanks (k : Nat) (cs : List Char) :
    ((List.replicate k ' ' ++ cs).splitOn '\n').map withoutBlanks =
      (cs.splitOn '\n').map withoutBlanks := by
  induction k with
  | zero => rfl
  | succ k ih =>
    rw [← ih, List.replicate_succ, List.cons_append, List.splitOn_eq_splitOnP, List.splitOn_eq_splitOnP,
      List.splitOnP_cons_eq_if_modifyHead, if_neg (by decide)]
    cases (List.replicate k ' ' ++ cs).splitOnP (· == '\n') with
    | nil => rfl
    | cons line rest => rfl

/-! ## The lines of an element -/

/-- The text of a line with its level, and how it is written below a depth. -/
def written (depth : Int) (line : Nat × String) : List Char :=
  (indent (depth + line.1)).toList ++ (line.2.toList ++ ['\n'])

/-- A closing tag. -/
def closingTag (tag : String) : String :=
  "</" ++ tag ++ ">"

namespace Element

/-- The line with which an element begins, without blanks: all of it, unless it is a block. -/
def firstLine : Element → String
  | .text tag classes content =>
    "<" ++ tag ++ classAttribute classes ++ ">" ++ escape content ++ closingTag tag
  | .image classes alt => "<img" ++ classAttribute classes ++ " alt=\"" ++ escape alt ++ "\" />"
  | .block tag classes _ => "<" ++ tag ++ classAttribute classes ++ ">"

mutual

/-- **The lines of an element** that stands at a level, each with its own level and without blanks. -/
def lines (level : Nat) : Element → List (Nat × String)
  | .text tag classes content => [(level, firstLine (.text tag classes content))]
  | .image classes alt => [(level, firstLine (.image classes alt))]
  | .block tag classes children =>
    (level, firstLine (.block tag classes [])) ::
      (allLines (level + 1) children ++ [(level, closingTag tag)])

/-- The lines of several elements. -/
def allLines (level : Nat) : List Element → List (Nat × String)
  | [] => []
  | e :: rest => e.lines level ++ allLines level rest

end

mutual

/-- **What is written of an element** are its lines, one after the other. -/
theorem toList_render (depth : Int) (level : Nat) (e : Element) :
    (e.render (depth + level)).toList = (e.lines level).flatMap (written depth) := by
  match e with
  | .text tag classes content =>
    simp [toList_render_text, lines, firstLine, closingTag, written]
  | .image classes alt =>
    simp [toList_render_image, lines, firstLine, written]
  | .block tag classes children =>
    have hchildren := toList_renderAll depth (level + 1) children
    have hlevel : depth + (level + 1 : Nat) = depth + level + 1 := by omega
    rw [hlevel] at hchildren
    rw [toList_render_block, hchildren, lines, List.flatMap_cons, List.flatMap_append]
    simp [firstLine, closingTag, written]

theorem toList_renderAll (depth : Int) (level : Nat) (es : List Element) :
    (renderAll (depth + level) es).toList = (allLines level es).flatMap (written depth) := by
  match es with
  | [] => rfl
  | e :: rest =>
    rw [renderAll, String.toList_append, toList_render depth level e, toList_renderAll depth level rest,
      allLines, List.flatMap_append]

end

end Element

/-- At level zero the lines stand below the depth itself. -/
theorem Element.toList_render_root (depth : Int) (e : Element) :
    (e.render depth).toList = (e.lines 0).flatMap (written depth) := by
  have hrender := e.toList_render depth 0
  rwa [Int.natCast_zero, Int.add_zero] at hrender

/-! ## Reading the lines -/

/-- The lines of a text with what is written after it split off at the line feed between them. -/
theorem splitOn_written (depth : Int) (line : Nat × String) (rest : List Char) :
    (written depth line ++ rest).splitOn '\n' =
      (indent (depth + line.1) ++ line.2).toList.splitOn '\n' ++ rest.splitOn '\n' := by
  rw [← splitOn_append_lineFeed, written, String.toList_append]
  simp only [List.append_assoc, List.cons_append, List.nil_append]

/-- Written lines without their blanks: those of their texts, and nothing after the last line feed. -/
theorem unindented_written (depth : Int) (lines : List (Nat × String)) :
    ((lines.flatMap (written depth)).splitOn '\n').map (String.ofList ∘ withoutBlanks) =
      lines.flatMap (fun line => unindented line.2) ++ [""] := by
  induction lines with
  | nil => rfl
  | cons line rest ih =>
    rw [List.flatMap_cons, splitOn_written, List.map_append, ih, String.toList_append, indent,
      String.toList_ofList, ← List.map_map, map_splitOn_blanks, List.map_map, List.flatMap_cons,
      List.append_assoc]
    rfl

/-- **Lines without their blanks do not tell the depth.** -/
theorem unindented_render (d d' : Int) (e : Element) :
    unindented (e.render d) = unindented (e.render d') := by
  rw [unindented, unindented, e.toList_render_root, e.toList_render_root, unindented_written,
    unindented_written]

/-- Written lines of texts without line feeds. -/
theorem linesOf_written (depth : Int) {lines : List (Nat × String)}
    (h : ∀ line ∈ lines, '\n' ∉ line.2.toList) :
    ((lines.flatMap (written depth)).splitOn '\n').map String.ofList =
      lines.map (fun line => indent (depth + line.1) ++ line.2) ++ [""] := by
  induction lines with
  | nil => rfl
  | cons line rest ih =>
    obtain ⟨hline, hrest⟩ := List.forall_mem_cons.mp h
    have hclean : '\n' ∉ (indent (depth + line.1) ++ line.2).toList := by
      rw [String.toList_append, indent, String.toList_ofList, List.mem_append, not_or]
      exact ⟨fun hblank => absurd (List.eq_of_mem_replicate hblank) (by decide), hline⟩
    rw [List.flatMap_cons, splitOn_written, splitOn_of_not_mem hclean, List.map_append, ih hrest,
      List.map_cons, List.map_nil, String.ofList_toList]
    rfl

/-- **Lines of texts without line feeds** are read as they are written. -/
theorem linesOf_render (depth : Int) {e : Element} (h : ∀ line ∈ e.lines 0, '\n' ∉ line.2.toList) :
    linesOf (e.render depth) =
      (e.lines 0).map (fun line => indent (depth + line.1) ++ line.2) ++ [""] := by
  rw [linesOf, e.toList_render_root]
  exact linesOf_written depth h

/-! ## Tags and line feeds -/

/-- Before a tag the blanks can be counted, and what is left without them begins with the tag. -/
theorem blanks_before_tag (k : Nat) (cs : List Char) :
    ((List.replicate k ' ' ++ '<' :: cs).takeWhile (· == ' ')).length = k ∧
      withoutBlanks (List.replicate k ' ' ++ '<' :: cs) = '<' :: cs := by
  have hblank : ∀ c ∈ List.replicate k ' ', (c == ' ') = true := by
    intro c hc
    rw [List.eq_of_mem_replicate hc]
    rfl
  rw [withoutBlanks, List.takeWhile_append_of_pos hblank, List.dropWhile_append_of_pos hblank]
  exact ⟨by simp, rfl⟩

/-- Every element begins with a tag. -/
theorem Element.toList_firstLine (e : Element) : ∃ cs, e.firstLine.toList = '<' :: cs := by
  cases e <;> simp [firstLine]

/-- Escaping makes no line feed. -/
theorem lineFeed_not_mem_escape {s : String} (h : '\n' ∉ s.toList) : '\n' ∉ (escape s).toList := by
  rw [toList_escape, List.mem_flatMap]
  rintro ⟨c, hc, hmem⟩
  unfold escapeChar at hmem
  split at hmem
  case h_6 =>
    obtain rfl := List.mem_singleton.mp hmem
    exact h hc
  all_goals exact absurd hmem (by decide)

/-- A class attribute of words has none. -/
theorem lineFeed_not_mem_classAttribute {classes : List String} (h : ∀ c ∈ classes, IsWord c) :
    '\n' ∉ (classAttribute classes).toList := by
  rw [classAttribute, String.toList_append, String.toList_append, List.mem_append, List.mem_append]
  rintro ((hmem | hmem) | hmem)
  · exact absurd hmem (by decide)
  · obtain hblank | ⟨c, hc, hmem⟩ := mem_intercalate_toList hmem
    · exact absurd hblank (by decide)
    · exact (h c hc).not_mem (by decide) hmem
  · exact absurd hmem (by decide)

end DesignMarkup.Html
