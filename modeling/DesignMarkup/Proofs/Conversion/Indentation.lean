import DesignMarkup.Proofs.Conversion.Abort
import DesignMarkup.Proofs.Html.Lines

/-!
# `Proofs.Conversion.Indentation` — the depth of a conversion and its lines

The depth at which a design is rendered is looked at once, before the walk begins, and then again only when
the lines are written. So two depths at which lines can be written make no difference to the walk, its
failure or what it leaves, and what is written differs in the blanks before the lines. Which lines there are
is known from the design: its outline lists the shown nodes with their levels and numbers, a box once for
its opening and once for its closing tag, and the lines are those of the outline, one by one.

## Contents

* `OutlineEntry`, `Node.outline`: the lines that a design has;
* `Node.outline_opening`, `Node.length_outline`: which nodes they belong to, and how many they are;
* `toElement_outlined`: **the lines of a walk** are those of the outline;
* `renderNode_depth`: **the depth of a conversion decides the blanks before its lines**;
* `uncountableDepth_differs`: two depths of which one cannot be written at.
-/

namespace DesignMarkup

open Html

/-! ## The outline of a design -/

/-- **A line that a design has**: the level of a shown node below the root, its number, its layer, and whether
the line closes a box. -/
structure OutlineEntry where
  level : Nat
  number : Nat
  layer : Layer
  closing : Bool

mutual

/-- **The lines that a node has**, which stands at a level and takes a number: one, or two around those of its
children if it shows them. -/
def Node.outline (options : Options) (level number : Nat) : Node → List OutlineEntry
  | .node l children =>
    ⟨level, number, l, false⟩ ::
      if (l.role options).showsChildren then
        Node.outlineAll options (level + 1) (number + 1) children ++ [⟨level, number, l, true⟩]
      else []

/-- The lines that several nodes have. Each takes as many numbers as layers are shown of it. -/
def Node.outlineAll (options : Options) (level number : Nat) : List Node → List OutlineEntry
  | [] => []
  | n :: rest =>
    n.outline options level number ++
      Node.outlineAll options level (number + (n.shown options).length) rest

end

/-- The lines that a shown layer takes. -/
def Layer.lineCount (options : Options) (l : Layer) : Nat :=
  if (l.role options).showsChildren then 2 else 1

/-- The layers and numbers of the lines that close no box. -/
def opened (entries : List OutlineEntry) : List (Layer × Nat) :=
  (entries.filter (!·.closing)).map fun x => (x.layer, x.number)

theorem opened_append (xs ys : List OutlineEntry) : opened (xs ++ ys) = opened xs ++ opened ys := by
  rw [opened, List.filter_append, List.map_append]
  rfl

mutual

/-- **The lines that close no box** are those of the shown layers, with their numbers, in the order of the
walk. -/
theorem Node.outline_opening (options : Options) (level number : Nat) (n : Node) :
    opened (n.outline options level number) = (n.shown options).zipIdx number := by
  match n with
  | .node l children =>
    have hfirst : ∀ xs, opened (⟨level, number, l, false⟩ :: xs) = (l, number) :: opened xs :=
      fun _ => rfl
    rw [Node.outline, Node.shown, hfirst, List.zipIdx_cons]
    congr 1
    split
    · rw [opened_append, Node.outlineAll_opening options (level + 1) (number + 1) children]
      exact List.append_nil _
    · rfl

theorem Node.outlineAll_opening (options : Options) (level number : Nat) (ns : List Node) :
    opened (Node.outlineAll options level number ns) = (Node.shownAll options ns).zipIdx number := by
  match ns with
  | [] => rfl
  | n :: rest =>
    rw [Node.outlineAll, Node.shownAll, opened_append, List.zipIdx_append,
      Node.outline_opening options level number n, Node.outlineAll_opening options level _ rest]

end

mutual

/-- **How many lines a node has**: one or two for each shown layer. -/
theorem Node.length_outline (options : Options) (level number : Nat) (n : Node) :
    (n.outline options level number).length = ((n.shown options).map (Layer.lineCount options)).sum := by
  match n with
  | .node l children =>
    rw [Node.outline, Node.shown, List.map_cons, List.sum_cons, List.length_cons, Layer.lineCount]
    split
    · rw [List.length_append, List.length_singleton,
        Node.length_outlineAll options (level + 1) (number + 1) children]
      omega
    · rfl

theorem Node.length_outlineAll (options : Options) (level number : Nat) (ns : List Node) :
    (Node.outlineAll options level number ns).length =
      ((Node.shownAll options ns).map (Layer.lineCount options)).sum := by
  match ns with
  | [] => rfl
  | n :: rest =>
    rw [Node.outlineAll, Node.shownAll, List.length_append, List.map_append, List.sum_append,
      Node.length_outline options level number n, Node.length_outlineAll options level _ rest]

end

mutual

/-- Every line of a node is that of a shown layer. -/
theorem Node.layer_mem_shown (options : Options) (level number : Nat) (n : Node) :
    ∀ x ∈ n.outline options level number, x.layer ∈ n.shown options := by
  match n with
  | .node l children =>
    intro x hx
    rw [Node.outline, List.mem_cons] at hx
    rw [Node.shown]
    rcases hx with rfl | hx
    · exact List.mem_cons_self
    · split at hx
      · next hshows =>
        rw [if_pos hshows]
        rcases List.mem_append.mp hx with hx | hx
        · exact List.mem_cons_of_mem _
            (Node.layer_mem_shownAll options (level + 1) (number + 1) children x hx)
        · rw [List.mem_singleton.mp hx]
          exact List.mem_cons_self
      · exact absurd hx List.not_mem_nil

theorem Node.layer_mem_shownAll (options : Options) (level number : Nat) (ns : List Node) :
    ∀ x ∈ Node.outlineAll options level number ns, x.layer ∈ Node.shownAll options ns := by
  match ns with
  | [] => exact fun x hx => absurd hx List.not_mem_nil
  | n :: rest =>
    intro x hx
    rw [Node.outlineAll] at hx
    rw [Node.shownAll]
    rcases List.mem_append.mp hx with hx | hx
    · exact List.mem_append_left _ (n.layer_mem_shown options level number x hx)
    · exact List.mem_append_right _ (Node.layer_mem_shownAll options level _ rest x hx)

end

/-! ## The texts of the lines -/

/-- **The text of a line**: the closing tag of the box, or else the first line of the element of the layer,
with the classes that are settled for it under its number. -/
def OutlineEntry.HasText (options : Options) (x : OutlineEntry) (text : String) : Prop :=
  ∃ classes,
    x.layer.roleClasses (x.layer.role options) (x.layer.ownClass options x.number) = .ok classes ∧
    text = if x.closing then closingTag ((x.layer.role options).boxTag x.layer.kind)
      else (x.layer.element (x.layer.role options) classes []).firstLine

/-- A line of an element is that of an entry: it has its level and its text. -/
def OutlineEntry.Matches (options : Options) (x : OutlineEntry) (line : Nat × String) : Prop :=
  line.1 = x.level ∧ x.HasText options line.2

mutual

/-- **The lines of a walk** are those of the outline, one by one. -/
theorem toElement_outlined (options : Options) (level : Nat) (n : Node) {c c' : Context} {e : Element}
    (h : (n.toElement options).run c = (.ok e, c')) :
    List.Forall₂ (OutlineEntry.Matches options) (n.outline options level (c.counter + 1))
      (e.lines level) := by
  match n with
  | .node l children =>
    obtain ⟨classes, c₁, henter, hrest⟩ := Node.toElement_ok h
    obtain ⟨d, -, hclasses, -⟩ := Layer.enter_ok henter
    have hcount := counter_enter henter
    have hfirst : OutlineEntry.HasText options ⟨level, c.counter + 1, l, false⟩
        (l.element (l.role options) classes []).firstLine := ⟨classes, hclasses, rfl⟩
    have hlast : OutlineEntry.HasText options ⟨level, c.counter + 1, l, true⟩
        (closingTag ((l.role options).boxTag l.kind)) := ⟨classes, hclasses, rfl⟩
    rw [Node.outline]
    generalize hrole : l.role options = r at hrest hfirst hlast
    cases r with
    | text =>
      obtain ⟨-, rfl⟩ := hrest
      exact .cons ⟨rfl, hfirst⟩ .nil
    | container =>
      obtain ⟨es, hes, rfl⟩ := hrest
      have hchildren := toElements_outlined options (level + 1) children hes
      rw [hcount] at hchildren
      exact .cons ⟨rfl, hfirst⟩ (List.rel_append hchildren (.cons ⟨rfl, hlast⟩ .nil))
    | button =>
      obtain ⟨-, rfl⟩ := hrest
      exact .cons ⟨rfl, hfirst⟩ .nil
    | image =>
      obtain ⟨-, rfl⟩ := hrest
      exact .cons ⟨rfl, hfirst⟩ .nil
    | plain =>
      obtain ⟨es, hes, rfl⟩ := hrest
      have hchildren := toElements_outlined options (level + 1) children hes
      rw [hcount] at hchildren
      exact .cons ⟨rfl, hfirst⟩ (List.rel_append hchildren (.cons ⟨rfl, hlast⟩ .nil))

theorem toElements_outlined (options : Options) (level : Nat) (ns : List Node) {c c' : Context}
    {es : List Element} (h : (Node.toElements options ns).run c = (.ok es, c')) :
    List.Forall₂ (OutlineEntry.Matches options) (Node.outlineAll options level (c.counter + 1) ns)
      (Element.allLines level es) := by
  match ns with
  | [] =>
    obtain ⟨he, rfl⟩ := Prod.mk.inj (h : (Except.ok [], c) = (Except.ok es, c'))
    obtain rfl := Except.ok.inj he
    exact .nil
  | n :: rest =>
    obtain ⟨e, c₁, hn, h⟩ := ok_of_run_bind h
    obtain ⟨es', c₂, hrest, h⟩ := ok_of_run_bind h
    obtain ⟨he, rfl⟩ := Prod.mk.inj (h : (Except.ok (e :: es'), c₂) = (Except.ok es, c'))
    obtain rfl := Except.ok.inj he
    have hlater := toElements_outlined options level rest hrest
    rw [(depicts_toElement options n hn).2.2, Nat.add_right_comm] at hlater
    exact List.rel_append (toElement_outlined options level n hn) hlater

end

/-! ## Line feeds -/

/-- The text of a layer that its element holds: none for a box. -/
def Layer.shownText (options : Options) (l : Layer) : String :=
  match l.role options with
  | .text => l.characters.getD ""
  | .button => l.buttonLabel
  | .image => textOr l.name "image"
  | .container | .plain => ""

theorem lineFeed_not_mem_closingTag {tag : String} (h : IsWord tag) : '\n' ∉ (closingTag tag).toList := by
  have htag : '\n' ∉ tag.toList := h.not_mem (by decide)
  simp [closingTag, htag]

/-- **A line has no line feed** unless it is in the text of the layer. -/
theorem OutlineEntry.HasText.lineFeed_not_mem {options : Options} {x : OutlineEntry} {text : String}
    (h : x.HasText options text) (htext : '\n' ∉ (x.layer.shownText options).toList) :
    '\n' ∉ text.toList := by
  obtain ⟨classes, hclasses, rfl⟩ := h
  have hown : IsWord (x.layer.ownClass options x.number) := isWord_numberedName (isWord_stem _ _) _
  have hattribute := lineFeed_not_mem_classAttribute (Layer.roleClasses_words hown hclasses).2
  split
  · exact lineFeed_not_mem_closingTag (isWord_boxTag _ _)
  · unfold Layer.shownText at htext
    have hbox : '\n' ∉ ((x.layer.role options).boxTag x.layer.kind).toList :=
      (isWord_boxTag _ _).not_mem (by decide)
    have htag : '\n' ∉ x.layer.textStyle.tag.toList := (isWord_tag _).not_mem (by decide)
    generalize x.layer.role options = r at htext hbox
    cases r with
    | text =>
      have hescape := lineFeed_not_mem_escape htext
      have hclosing := lineFeed_not_mem_closingTag (isWord_tag x.layer.textStyle)
      simp [Layer.element, Element.firstLine, hattribute, hescape, hclosing, htag]
    | button =>
      have hescape := lineFeed_not_mem_escape htext
      have hclosing := lineFeed_not_mem_closingTag (show IsWord "button" by decide)
      simp [Layer.element, Element.firstLine, hattribute, hescape, hclosing]
    | image =>
      have hescape := lineFeed_not_mem_escape htext
      simp [Layer.element, Element.firstLine, hattribute, hescape]
    | container => simp [Layer.element, Element.firstLine, hattribute, hbox]
    | plain => simp [Layer.element, Element.firstLine, hattribute, hbox]

/-! ## Lines as they are written -/

/-- **A line is written for an entry at a depth**: without its blanks it is the text of the entry, and it has
two blanks for each level, counted from the depth, or none if that is negative. -/
structure OutlineEntry.Written (options : Options) (depth : Int) (x : OutlineEntry) (line : String) :
    Prop where
  text : x.HasText options (String.ofList (withoutBlanks line.toList))
  blanks : ((line.toList.takeWhile (· == ' ')).length : Int) = 2 * max 0 (depth + x.level)

/-- The text of a line begins with a tag. -/
theorem OutlineEntry.HasText.exists_tag {options : Options} {x : OutlineEntry} {text : String}
    (h : x.HasText options text) : ∃ cs, text.toList = '<' :: cs := by
  obtain ⟨classes, -, rfl⟩ := h
  split
  · simp [closingTag]
  · exact Element.toList_firstLine _

theorem OutlineEntry.Matches.written {options : Options} {x : OutlineEntry} {line : Nat × String}
    (h : x.Matches options line) (depth : Int) :
    x.Written options depth (indent (depth + line.1) ++ line.2) := by
  obtain ⟨hlevel, htext⟩ := h
  obtain ⟨cs, hcs⟩ := htext.exists_tag
  have hline : (indent (depth + line.1) ++ line.2).toList =
      List.replicate (2 * (depth + x.level).toNat) ' ' ++ '<' :: cs := by
    rw [String.toList_append, indent, String.toList_ofList, hcs, hlevel]
  obtain ⟨hcount, hrest⟩ := blanks_before_tag (2 * (depth + x.level).toNat) cs
  constructor
  · rw [hline, hrest, ← hcs, String.ofList_toList]
    exact htext
  · rw [hline, hcount]
    omega

/-- **The lines of a design** whose texts have no line feeds. -/
theorem linesOf_outline {options : Options} {n : Node} {c c' : Context} {e : Element}
    (h : (n.toElement options).run c = (.ok e, c'))
    (htext : ∀ l ∈ n.shown options, '\n' ∉ (l.shownText options).toList) (depth : Int) :
    ∃ lines, linesOf (e.render depth) = lines ++ [""] ∧
      List.Forall₂ (OutlineEntry.Written options depth) (n.outline options 0 (c.counter + 1)) lines := by
  have hmatches := toElement_outlined options 0 n h
  have hclean : ∀ line ∈ e.lines 0, '\n' ∉ line.2.toList := by
    have hboth := (List.forall₂_and_left (p := fun x => x.layer ∈ n.shown options) _ _).mpr
      ⟨n.layer_mem_shown options 0 (c.counter + 1), hmatches⟩
    refine ((List.forall₂_and_left (p := fun line => '\n' ∉ line.2.toList) _ _).mp
      (hboth.flip.imp fun line x hx => ⟨?_, hx⟩)).1
    exact hx.2.2.lineFeed_not_mem (htext x.layer hx.1)
  refine ⟨_, linesOf_render depth hclean, List.forall₂_map_right_iff.mpr ?_⟩
  exact hmatches.imp fun _ _ hx => hx.written depth

/-! ## Two depths -/

/-- Where lines can be written, the walk decides how a rendering ends. -/
theorem run_renderNode {options : Options} {n : Node} {depth : Int} (h : Writable depth) (c : Context) :
    (renderNode options (some n) depth).run c =
      (n.toElement options >>= fun e => pure (e.render depth)).run c := by
  obtain ⟨u, hdepth⟩ := (checkDepth_succeeds_iff _).mpr h
  rw [renderNode]
  exact run_bind_ok (run_entering hdepth c)

/-- **The depth of a conversion decides the blanks before its lines**, and nothing else. Where no line can be
written a rendering fails at once. Between depths where lines can be written it fails alike or succeeds alike,
with the same context, and the lines are the same without their blanks. If no text has a line feed, they are
those of the outline, one by one, each with its blanks: the shown layers have one line each in the order of
the walk, and boxes have a second one. -/
theorem renderNode_depth (options : Options) (n : Node) (c : Context) :
    (∀ d, ¬Writable d → ∃ e, (renderNode options (some n) d).run c = (.error (.depth e), c)) ∧
    ∀ d d', Writable d → Writable d' →
      (∃ e c', (renderNode options (some n) d).run c = (.error e, c') ∧
        (renderNode options (some n) d').run c = (.error e, c')) ∨
      ∃ html html' c', (renderNode options (some n) d).run c = (.ok html, c') ∧
        (renderNode options (some n) d').run c = (.ok html', c') ∧
        unindented html = unindented html' ∧
        ((∀ l ∈ n.shown options, '\n' ∉ (l.shownText options).toList) →
          ∃ lines, linesOf html = lines ++ [""] ∧
            List.Forall₂ (OutlineEntry.Written options d) (n.outline options 0 (c.counter + 1)) lines ∧
            opened (n.outline options 0 (c.counter + 1)) = (n.shown options).zipIdx (c.counter + 1) ∧
            lines.length = ((n.shown options).map (Layer.lineCount options)).sum) := by
  refine ⟨fun d hd => renderNode_unwritable hd n c, fun d d' hd hd' => ?_⟩
  rw [run_renderNode hd, run_renderNode hd']
  rcases hwalk : (n.toElement options).run c with ⟨_ | e, c'⟩
  · exact .inl ⟨_, c', run_bind_error hwalk, run_bind_error hwalk⟩
  · refine .inr ⟨e.render d, e.render d', c', run_bind_ok hwalk, run_bind_ok hwalk,
      unindented_render d d' e, fun htext => ?_⟩
    obtain ⟨lines, hlines, hwritten⟩ := linesOf_outline hwalk htext d
    refine ⟨lines, hlines, hwritten, n.outline_opening options 0 _, ?_⟩
    rw [← hwritten.length_eq, n.length_outline]

/-- The sample design at two depths, one of them negative. -/
theorem sampleDesign_indented :
    Writable 1 ∧ Writable (-3) ∧ (∀ l ∈ sampleDesign.shown {}, '\n' ∉ (l.shownText {}).toList) ∧
      ((renderNode {} (some sampleDesign) 1).run .fresh).1.toOption = some sampleMarkup ∧
      ∃ html', ((renderNode {} (some sampleDesign) (-3)).run .fresh).1.toOption = some html' ∧
        unindented sampleMarkup = unindented html' ∧
        ∃ lines, linesOf sampleMarkup = lines ++ [""] ∧
          List.Forall₂ (OutlineEntry.Written {} 1) (sampleDesign.outline {} 0 1) lines ∧
          opened (sampleDesign.outline {} 0 1) = (sampleDesign.shown {}).zipIdx 1 ∧
          lines.length = 7 := by
  have hfirst : Writable 1 := ⟨by decide, by decide⟩
  have hsecond : Writable (-3) := ⟨by decide, by decide⟩
  have htext : ∀ l ∈ sampleDesign.shown {}, '\n' ∉ (l.shownText {}).toList := by
    decide +kernel
  have hrun : ((renderNode {} (some sampleDesign) 1).run .fresh).1.toOption = some sampleMarkup := by
    decide +kernel
  refine ⟨hfirst, hsecond, htext, hrun, ?_⟩
  obtain ⟨e, c', he, -⟩ | ⟨html, html', c', hhtml, hhtml', hsame, hlines⟩ :=
    (renderNode_depth {} sampleDesign .fresh).2 1 (-3) hfirst hsecond
  · rw [he] at hrun
    cases hrun
  · rw [hhtml] at hrun
    obtain rfl := Option.some.inj hrun
    exact ⟨html', by rw [hhtml']; rfl, hsame, hlines htext⟩

/-- **Not every two depths end alike**: at one that cannot be counted a rendering fails, and at the margin it
succeeds. -/
theorem uncountableDepth_differs :
    (∃ e, (renderNode {} (some (.node (.bare .frame "Card" none) [])) (-9223372036854775809)).run .fresh =
        (.error e, .fresh)) ∧
      ((renderNode {} (some (.node (.bare .frame "Card" none) [])) 0).run .fresh).1.toOption =
        some "<section class=\"frame-1\">\n</section>\n" := by
  exact ⟨⟨.depth .uncountable, rfl⟩, by decide +kernel⟩

end DesignMarkup
