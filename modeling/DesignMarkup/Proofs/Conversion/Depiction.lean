import DesignMarkup.Proofs.Conversion.Walk
import DesignMarkup.Proofs.Html.RoundTrip
import DesignMarkup.Proofs.Layout.Words

/-!
# `Proofs.Conversion.Depiction` — what a reader of a converted design sees

The text of a conversion is read back by the plain scanner as one tree of elements, and that tree
depicts the design: one element for each shown node and no other, in the same order and the same nesting,
with the tag of the rule that shows the node, with its class, and with its text as it was given. So no
text of a design, whatever its characters, adds an element, ends one or changes an attribute.

`Depicts` states the rules with their conditions, in terms of the design and of what is read alone.

## Contents

* `Depicts`, `DepictsAll`: the rules by which an element depicts a node;
* `depicts_toElement`: the walk yields elements that depict the nodes;
* `read_root`: what is written of an element is one tree;
* `renderNode_depicts`: **the reading of a whole conversion**.
-/

namespace DesignMarkup

open Html Markup

/-! ## Depiction -/

mutual

/-- **An element depicts a node** whose class has the number `k`, by the rule of the role that fits the
node: the rule for texts, containers, buttons, images or plain boxes. Boxes depict the children of the
node with the numbers that follow; the other elements have no elements below them. -/
inductive Depicts (options : Options) : Nat → Node → Piece → Prop where
  | text {k : Nat} {l : Layer} {children : List Node} {p : Piece} :
    Role.text.Fits options l →
    p.tag = l.textStyle.tag →
    p.attributeNames = ["class"] → numberedName "text" k ∈ p.classes →
    elementsOf p.content = [] →
    unescapeText (textOf p.content) = l.characters.getD "" →
    Depicts options k (.node l children) p
  | container {k : Nat} {l : Layer} {children : List Node} {p : Piece} :
    Role.container.Fits options l →
    p.tag = (if l.kind = .frame ∨ l.kind = .component then "section" else "div") →
    p.attributeNames = ["class"] → numberedName l.kind.className k ∈ p.classes →
    OnlyBlanksBeside p.content →
    DepictsAll options (k + 1) children (elementsOf p.content) →
    Depicts options k (.node l children) p
  | button {k : Nat} {l : Layer} {children : List Node} {p : Piece} :
    Role.button.Fits options l →
    p.tag = "button" →
    p.attributeNames = ["class"] → numberedName "btn" k ∈ p.classes →
    elementsOf p.content = [] →
    unescapeText (textOf p.content) = textOr (l.characters.getD "") (textOr l.name "Button") →
    Depicts options k (.node l children) p
  | image {k : Nat} {l : Layer} {children : List Node} {p : Piece} :
    Role.image.Fits options l →
    p.tag = "img" →
    p.attributeNames = ["class", "alt"] → numberedName "img" k ∈ p.classes →
    p.content = [] →
    (p.attribute? "alt").map unescapeText = some (textOr l.name "image") →
    Depicts options k (.node l children) p
  | plain {k : Nat} {l : Layer} {children : List Node} {p : Piece} :
    Role.plain.Fits options l →
    p.tag = "div" →
    p.attributeNames = ["class"] → numberedName "container" k ∈ p.classes →
    OnlyBlanksBeside p.content →
    DepictsAll options (k + 1) children (elementsOf p.content) →
    Depicts options k (.node l children) p

/-- Elements depict nodes one by one. The first has the number `k`, and each takes as many numbers as
layers are shown of its node. -/
inductive DepictsAll (options : Options) : Nat → List Node → List Piece → Prop where
  | nil {k : Nat} : DepictsAll options k [] []
  | cons {k : Nat} {n : Node} {ns : List Node} {p : Piece} {ps : List Piece} :
    Depicts options k n p →
    DepictsAll options (k + (n.shown options).length) ns ps →
    DepictsAll options k (n :: ns) (p :: ps)

end

/-! ## What is read of the elements of a walk -/

section Reading

variable {tag : String} {classes : List String} {more : List (String × String)}
  {content : List Piece}

/-- The classes are read as they were written. -/
theorem classes_classPair (hne : classes ≠ []) (h : ∀ c ∈ classes, IsWord c) :
    (Piece.element tag (Element.classPair classes :: more) content).classes = classes := by
  have hget : (Piece.element tag (Element.classPair classes :: more) content).attribute? "class" =
      some (" ".intercalate classes) := rfl
  have hblank : " ".toList = [' '] := rfl
  rw [Piece.classes, hget, Option.getD_some, String.toList_intercalate, hblank,
    List.splitOn_intercalate]
  · rw [List.map_map]
    conv => rhs; rw [← List.map_id classes]
    exact List.map_congr_left fun c _ => String.ofList_toList
  · intro cs hcs
    obtain ⟨c, hc, rfl⟩ := List.mem_map.mp hcs
    exact (h c hc).not_mem (by decide)
  · exact fun he => hne (List.map_eq_nil_iff.mp he)

theorem elementsOf_textPiece (cs : List Char) : elementsOf (textPiece cs) = [] := by
  unfold textPiece
  split <;> rfl

theorem textOf_textPiece (s : String) : textOf (textPiece s.toList) = s := by
  unfold textPiece
  split
  · next h =>
    have hs : s = "" := String.toList_inj.mp ((List.isEmpty_iff.mp h).trans String.toList_empty.symm)
    rw [hs, textOf]
  · rw [textOf, textOf, String.append_empty, String.ofList_toList]

theorem isElement_piece (depth : Int) (e : Element) : (e.piece depth).isElement = true := by
  cases e <;> rfl

theorem elementsOf_pieces (depth : Int) (es : List Element) :
    elementsOf (Element.pieces depth es) = es.map (Element.piece depth) := by
  induction es with
  | nil => rfl
  | cons e es ih =>
    rw [Element.pieces, elementsOf, List.filter_cons_of_neg (by simp [Piece.isElement]),
      List.filter_cons_of_pos (isElement_piece depth e), ← elementsOf, ih, List.map_cons]

theorem isBlank_indent (depth : Int) : (Piece.text (indent depth)).isBlank = true := by
  have hl : (indent depth).toList = List.replicate (2 * depth.toNat) ' ' := String.toList_ofList
  rw [Piece.isBlank, hl, List.all_replicate]
  simp

theorem isBlank_lineFeed_indent (depth : Int) :
    (Piece.text ("\n" ++ indent depth)).isBlank = true := by
  have hl : ("\n" ++ indent depth).toList = '\n' :: (indent depth).toList := by simp
  have hblank := isBlank_indent depth
  rw [Piece.isBlank] at hblank
  rw [Piece.isBlank, hl, List.all_cons, hblank]
  decide

theorem onlyBlanksBeside_pieces (depth : Int) (es : List Element) :
    OnlyBlanksBeside (Element.pieces depth es) := by
  induction es with
  | nil => exact fun p hp => absurd hp List.not_mem_nil
  | cons e es ih =>
    intro p hp hne
    rw [Element.pieces, List.mem_cons, List.mem_cons] at hp
    rcases hp with rfl | rfl | hp
    · exact isBlank_lineFeed_indent depth
    · rw [isElement_piece] at hne
      exact absurd hne (by decide)
    · exact ih p hp hne

/-- Of an element with text its text is read, as it was before it was escaped. -/
theorem content_text (depth : Int) (tag : String) (classes : List String) (s : String) :
    elementsOf ((Element.text tag classes s).piece depth).content = [] ∧
    unescapeText (textOf ((Element.text tag classes s).piece depth).content) = s := by
  rw [Element.piece, Piece.content]
  exact ⟨elementsOf_textPiece _, by rw [textOf_textPiece, unescapeText_escape]⟩

/-- Of a box its elements are read, with blanks besides. -/
theorem content_block (depth : Int) (tag : String) (classes : List String) (es : List Element) :
    OnlyBlanksBeside ((Element.block tag classes es).piece depth).content ∧
    elementsOf ((Element.block tag classes es).piece depth).content =
      es.map (Element.piece (depth + 1)) := by
  rw [Element.piece, Piece.content]
  constructor
  · intro p hp hne
    rcases List.mem_append.mp hp with hp | hp
    · exact onlyBlanksBeside_pieces (depth + 1) es p hp hne
    · rw [List.mem_singleton.mp hp]
      exact isBlank_lineFeed_indent depth
  · rw [elementsOf, List.filter_append, ← elementsOf, elementsOf_pieces]
    exact List.append_nil _

end Reading

/-! ## The walk depicts -/

/-- The classes of a layer that was entered are words, and the class minted for it is one of them. -/
theorem classes_of_enter {l : Layer} {r : Role} {c c' : Context} {classes : List String}
    (h : (l.enter r).run c = (.ok classes, c')) :
    numberedName (r.stem l.kind) (c.counter + 1) ∈ classes ∧ ∀ s ∈ classes, IsWord s := by
  obtain ⟨d, -, hc, -⟩ := Layer.enter_ok h
  exact Layer.roleClasses_words (isWord_numberedName (isWord_stem r l.kind) _) hc

/-- The class minted for a layer is read among the classes of its element. -/
theorem own_mem_classes {l : Layer} {r : Role} {c c' : Context} {classes : List String}
    (h : (l.enter r).run c = (.ok classes, c')) (tag : String) (more : List (String × String))
    (content : List Piece) : numberedName (r.stem l.kind) (c.counter + 1) ∈
      (Piece.element tag (Element.classPair classes :: more) content).classes := by
  obtain ⟨hmem, hwords⟩ := classes_of_enter h
  rw [classes_classPair (List.ne_nil_of_mem hmem) hwords]
  exact hmem

/-- The counter after a layer was entered. -/
theorem counter_enter {l : Layer} {r : Role} {c c' : Context} {classes : List String}
    (h : (l.enter r).run c = (.ok classes, c')) : c'.counter = c.counter + 1 := by
  obtain ⟨d, -, -, rfl⟩ := Layer.enter_ok h
  rfl

mutual

/-- **The walk depicts**: the element of a node is clean, what is read of it depicts the node, and the
numbers that the shown layers take are counted. -/
theorem depicts_toElement (options : Options) (n : Node) {c c' : Context} {e : Element}
    (h : (n.toElement options).run c = (.ok e, c')) :
    e.IsClean ∧ (∀ depth, Depicts options (c.counter + 1) n (e.piece depth)) ∧
      c'.counter = c.counter + (n.shown options).length := by
  match n with
  | .node l children =>
    obtain ⟨classes, c₁, henter, hrest⟩ := Node.toElement_ok h
    have hcount := counter_enter henter
    have hfits : (l.role options).Fits options l := (l.role_eq_iff options _).mp rfl
    rw [Node.shown]
    -- the role decides both what is shown below and by which rule the element depicts the node
    generalize l.role options = r at henter hrest hfits ⊢
    have hown := own_mem_classes henter
    have hwords := (classes_of_enter henter).2
    cases r with
    | text =>
      obtain ⟨rfl, rfl⟩ := hrest
      refine ⟨⟨isWord_tag l.textStyle, hwords⟩, fun depth => ?_, hcount⟩
      obtain ⟨hnone, htext⟩ := content_text depth l.textStyle.tag classes (l.characters.getD "")
      exact .text hfits rfl rfl (hown _ _ _) hnone htext
    | container =>
      obtain ⟨es, hes, rfl⟩ := hrest
      obtain ⟨hclean, hdepicts, hcounts⟩ := depicts_toElements options children hes
      rw [hcount] at hdepicts hcounts
      rw [Nat.add_right_comm] at hcounts
      refine ⟨⟨isWord_boxTag _ _, hwords, hclean⟩, fun depth => ?_, hcounts⟩
      obtain ⟨hblank, hels⟩ := content_block depth (Role.container.boxTag l.kind) classes es
      refine .container hfits ?_ rfl (hown _ _ _) hblank (hels ▸ hdepicts (depth + 1))
      simp [Layer.element, Element.piece, Piece.tag, Role.boxTag]
    | button =>
      obtain ⟨rfl, rfl⟩ := hrest
      refine ⟨⟨by decide, hwords⟩, fun depth => ?_, hcount⟩
      obtain ⟨hnone, htext⟩ := content_text depth "button" classes l.buttonLabel
      exact .button hfits rfl rfl (hown _ _ _) hnone htext
    | image =>
      obtain ⟨rfl, rfl⟩ := hrest
      refine ⟨hwords, fun depth => ?_, hcount⟩
      have halt : some (unescapeText (escape (textOr l.name "image"))) = some (textOr l.name "image") :=
        congrArg some (unescapeText_escape _)
      exact .image hfits rfl rfl (hown _ _ _) rfl halt
    | plain =>
      obtain ⟨es, hes, rfl⟩ := hrest
      obtain ⟨hclean, hdepicts, hcounts⟩ := depicts_toElements options children hes
      rw [hcount] at hdepicts hcounts
      rw [Nat.add_right_comm] at hcounts
      refine ⟨⟨isWord_boxTag _ _, hwords, hclean⟩, fun depth => ?_, hcounts⟩
      obtain ⟨hblank, hels⟩ := content_block depth (Role.plain.boxTag l.kind) classes es
      refine .plain hfits ?_ rfl (hown _ _ _) hblank (hels ▸ hdepicts (depth + 1))
      simp [Layer.element, Element.piece, Piece.tag, Role.boxTag]

/-- The elements of several nodes depict them one by one. -/
theorem depicts_toElements (options : Options) (ns : List Node) {c c' : Context} {es : List Element}
    (h : (Node.toElements options ns).run c = (.ok es, c')) :
    Element.AllClean es ∧
      (∀ depth, DepictsAll options (c.counter + 1) ns (es.map (Element.piece depth))) ∧
      c'.counter = c.counter + (Node.shownAll options ns).length := by
  match ns with
  | [] =>
    obtain ⟨he, rfl⟩ := Prod.mk.inj (h : (Except.ok [], c) = (Except.ok es, c'))
    obtain rfl := Except.ok.inj he
    exact ⟨trivial, fun _ => .nil, rfl⟩
  | n :: rest =>
    obtain ⟨e, c₁, hn, h⟩ := ok_of_run_bind h
    obtain ⟨es', c₂, hrest, h⟩ := ok_of_run_bind h
    obtain ⟨he, rfl⟩ := Prod.mk.inj (h : (Except.ok (e :: es'), c₂) = (Except.ok es, c'))
    obtain rfl := Except.ok.inj he
    obtain ⟨hclean, hdepicts, hcount⟩ := depicts_toElement options n hn
    obtain ⟨hcleans, hdepictsAll, hcounts⟩ := depicts_toElements options rest hrest
    -- the numbers of the later nodes begin after those of the first one
    refine ⟨⟨hclean, hcleans⟩, fun depth => ?_, ?_⟩
    · refine .cons (hdepicts depth) ?_
      have hall := hdepictsAll depth
      rw [hcount, Nat.add_right_comm] at hall
      exact hall
    · rw [hcounts, hcount, Node.shownAll, List.length_append]
      omega

end

/-! ## Whole conversions -/

/-- Lines of a node that are written are the lines of its element. -/
theorem renderNode_ok {options : Options} {n : Node} {depth : Int} {c c' : Context} {html : String}
    (h : (renderNode options (some n) depth).run c = (.ok html, c')) :
    checkDepth depth = .ok () ∧
      ∃ e, (n.toElement options).run c = (.ok e, c') ∧ html = e.render depth := by
  rw [renderNode] at h
  obtain ⟨_, c₁, hd, hrest⟩ := ok_of_run_bind h
  obtain ⟨hdepth, rfl⟩ := Prod.mk.inj
    (hd : ((checkDepth depth).mapError ConversionError.depth, c) = (Except.ok _, c₁))
  obtain ⟨e, c₂, he, hrest⟩ := ok_of_run_bind hrest
  obtain ⟨hhtml, rfl⟩ := Prod.mk.inj
    (hrest : (Except.ok (e.render depth), c₂) = (Except.ok html, c'))
  exact ⟨mapError_eq_ok.mp hdepth, e, he, (Except.ok.inj hhtml).symm⟩

/-- **A clean element is read back as one tree**, with white space beside it. -/
theorem read_root {e : Element} (h : e.IsClean) (depth : Int) :
    ∃ pieces, Markup.read (e.render depth) = some pieces ∧ elementsOf pieces = [e.piece depth] ∧
      OnlyBlanksBeside pieces := by
  -- blanks are read before the root unless it stands at the margin, and a line feed after it
  refine ⟨_, read_render e h depth, ?_, ?_⟩
  · rw [elementsOf, List.filter_append, ← elementsOf, elementsOf_textPiece, List.nil_append,
      List.filter_cons_of_pos (isElement_piece depth e)]
    rfl
  · intro p hp hne
    rw [List.mem_append, List.mem_cons, List.mem_singleton] at hp
    rcases hp with hp | rfl | rfl
    · unfold textPiece at hp
      split at hp
      · exact absurd hp List.not_mem_nil
      · rw [List.mem_singleton.mp hp, String.ofList_toList]
        exact isBlank_indent depth
    · rw [isElement_piece] at hne
      exact absurd hne (by decide)
    · decide

/-- **A conversion is read back as the design.** What is written of a node is one balanced tree, with
white space beside it, and the tree depicts the node: the numbers of its classes are the next ones, one
for each shown layer. -/
theorem renderNode_depicts (options : Options) (n : Node) (depth : Int) (c c' : Context)
    (html : String) (h : (renderNode options (some n) depth).run c = (.ok html, c')) :
    ∃ pieces root, Markup.read html = some pieces ∧ elementsOf pieces = [root] ∧
      OnlyBlanksBeside pieces ∧ Depicts options (c.counter + 1) n root ∧
      c'.counter = c.counter + (n.shown options).length := by
  obtain ⟨-, e, he, rfl⟩ := renderNode_ok h
  obtain ⟨hclean, hdepicts, hcount⟩ := depicts_toElement options n he
  obtain ⟨pieces, hread, hroot, hblank⟩ := read_root hclean depth
  exact ⟨pieces, e.piece depth, hread, hroot, hblank, hdepicts depth, hcount⟩

/-- A layer of which no more is given than its kind and its texts. -/
def Layer.bare (kind : Kind) (name : String) (characters : Option String) : Layer where
  kind
  name
  id := ""
  typeName := kind.name
  fills := []
  strokes := []
  strokeWeight := none
  effects := []
  cornerRadius := none
  width := none
  height := none
  layoutMode := none
  primaryAlign := none
  counterAlign := none
  itemSpacing := none
  padding := ⟨none, none, none, none⟩
  characters
  textStyle := .unset

/-- A design whose texts look like markup, with an image of a width of its own. -/
def sampleDesign : Node :=
  .node (.bare .frame "Card" none)
    [.node (.bare .text "Title" (some "</p><b class=\"x\">&'")) [],
     .node { Layer.bare .image "\"><img" none with width := some (.int 40) } [],
     .node (.bare .other "Plain" none)
      [.node (.bare .other "Buy button" none) [.node (.bare .text "" (some "label")) []]]]

/-- What is written of it. -/
def sampleMarkup : String :=
  "  <section class=\"frame-1\">\n" ++
  "    <p class=\"text-2\">&lt;/p&gt;&lt;b class=&quot;x&quot;&gt;&amp;&#039;</p>\n" ++
  "    <img class=\"img-3 img-fluid\" alt=\"&quot;&gt;&lt;img\" />\n" ++
  "    <div class=\"container-4\">\n" ++
  "      <button class=\"btn btn-primary btn-5\">Buy button</button>\n" ++
  "    </div>\n" ++
  "  </section>\n"

theorem sampleDesign_depicted :
    ((renderNode {} (some sampleDesign) 1).run .fresh).1.toOption = some sampleMarkup ∧
    ∃ pieces root, Markup.read sampleMarkup = some pieces ∧ elementsOf pieces = [root] ∧
      OnlyBlanksBeside pieces ∧ Depicts {} 1 sampleDesign root ∧
      ((renderNode {} (some sampleDesign) 1).run .fresh).2.counter = 5 := by
  have hrun : ((renderNode {} (some sampleDesign) 1).run .fresh).1.toOption = some sampleMarkup := by
    decide +kernel
  exact ⟨hrun, renderNode_depicts {} sampleDesign 1 .fresh _ _ (run_of_toOption hrun)⟩

end DesignMarkup
