import DesignMarkup.Proofs.Conversion.Depiction
import DesignMarkup.Proofs.Conversion.Entered

/-!
# `Proofs.Conversion.Catalogue` — the markup and the stylesheet of one design

A conversion has two outputs, the markup and the stylesheet. They are made by the same walk, but only the
first is its result: the other is what the walk leaves in the context. Here the two are laid side by side.
For each layer that is shown there is one element, one class and one set of declarations, in the order of
the walk, and the stylesheet has the rules of those layers that declare anything.

Both outputs follow from the list of the layers that the walk entered, the rules by what such a list leaves
and the elements by way of what the markup depicts.

## Contents

* `Piece.elements`, `named_elements`: the elements in document order with their classes;
* `Exhibit`, `Entered.exhibits`: elements, classes and declarations side by side;
* `Node.pruned`, `toElement_pruned`: what is not shown has no part in a conversion;
* `Exhibited`, `exhibited_convert`: the exhibits of a conversion in whatever context;
* `convert_exhibits`: **the markup and the stylesheet agree**.
-/

namespace DesignMarkup

open Html Markup

/-! ## Elements in document order -/

mutual

/-- An element and all elements below it, in document order. -/
def Markup.Piece.elements : Piece → List Piece
  | .text _ => []
  | .element tag attributes content => .element tag attributes content :: Markup.elementsBelow content

/-- The elements of several pieces, in document order. -/
def Markup.elementsBelow : List Piece → List Piece
  | [] => []
  | p :: rest => p.elements ++ Markup.elementsBelow rest

end

/-- What has attributes is an element. -/
theorem elements_of_attributeNames {p : Piece} {name : String} {names : List String}
    (h : p.attributeNames = name :: names) : p.elements = p :: elementsBelow p.content := by
  cases p with
  | text content => cases h
  | element tag attributes content => rw [Piece.elements, Piece.content]

/-- Text beside elements has no elements. -/
theorem elementsBelow_elementsOf (ps : List Piece) : elementsBelow (elementsOf ps) = elementsBelow ps := by
  induction ps with
  | nil => rfl
  | cons p ps ih =>
    cases p with
    | text content =>
      rw [elementsOf, List.filter_cons_of_neg (by simp [Piece.isElement]), ← elementsOf, ih,
        elementsBelow, Piece.elements, List.nil_append]
    | element tag attributes content =>
      rw [elementsOf, List.filter_cons_of_pos rfl, ← elementsOf, elementsBelow, ih, elementsBelow]

/-- The elements have the names among their classes, one by one. -/
def Named (names : List String) (elements : List Piece) : Prop :=
  List.Forall₂ (fun name e => name ∈ e.classes) names elements

section Element

variable {options : Options} {k : Nat} {l : Layer} {r : Role} {children : List Node} {p : Piece}

/-- An element without elements below it, for a node of which no children are shown. -/
theorem named_single {attributes : List String} (hfits : r.Fits options l)
    (hshows : r.showsChildren = false) (hattr : p.attributeNames = "class" :: attributes)
    (hmem : numberedName (r.stem l.kind) k ∈ p.classes) (hnone : elementsOf p.content = []) :
    Named (Layer.ownClasses options k ((Node.node l children).shown options)) p.elements := by
  obtain rfl := (l.role_eq_iff options r).mpr hfits
  rw [elements_of_attributeNames hattr, ← elementsBelow_elementsOf, hnone, Node.shown, hshows]
  exact .cons hmem .nil

/-- An element of a box, around elements for the children. -/
theorem named_box (hfits : r.Fits options l) (hshows : r.showsChildren = true)
    (hattr : p.attributeNames = ["class"]) (hmem : numberedName (r.stem l.kind) k ∈ p.classes)
    (hbelow : Named (Layer.ownClasses options (k + 1) (Node.shownAll options children))
      (elementsBelow (elementsOf p.content))) :
    Named (Layer.ownClasses options k ((Node.node l children).shown options)) p.elements := by
  obtain rfl := (l.role_eq_iff options r).mpr hfits
  rw [elements_of_attributeNames hattr, ← elementsBelow_elementsOf, Node.shown, hshows]
  exact .cons hmem hbelow

end Element

mutual

/-- **The elements that depict a node have the classes of its shown layers**, in the same order. -/
theorem named_elements (options : Options) (n : Node) {k : Nat} {p : Piece}
    (h : Depicts options k n p) :
    Named (Layer.ownClasses options k (n.shown options)) p.elements := by
  match n, h with
  | .node l children, .text hfits _ hattr hmem hnone _ =>
    exact named_single hfits rfl hattr hmem hnone
  | .node l children, .container hfits _ hattr hmem _ hall =>
    exact named_box hfits rfl hattr hmem (named_elementsAll options children hall)
  | .node l children, .button hfits _ hattr hmem hnone _ =>
    exact named_single hfits rfl hattr hmem hnone
  | .node l children, .image hfits _ hattr hmem hnone _ =>
    have hbelow : elementsOf p.content = [] := by rw [hnone]; rfl
    exact named_single hfits rfl hattr hmem hbelow
  | .node l children, .plain hfits _ hattr hmem _ hall =>
    exact named_box hfits rfl hattr hmem (named_elementsAll options children hall)

theorem named_elementsAll (options : Options) (ns : List Node) {k : Nat} {ps : List Piece}
    (h : DepictsAll options k ns ps) :
    Named (Layer.ownClasses options k (Node.shownAll options ns)) (elementsBelow ps) := by
  match ns, h with
  | [], .nil => exact .nil
  | n :: rest, .cons hn hrest =>
    rw [Node.shownAll, elementsBelow, Layer.ownClasses_append]
    exact List.rel_append (named_elements options n hn) (named_elementsAll options rest hrest)

end

/-! ## Exhibits -/

/-- A shown layer with its class, its declarations and its element. -/
structure Exhibit where
  layer : Layer
  name : String
  declarations : Declarations
  element : Piece

/-- The exhibit is right: the element has the class, and the declarations are those of the layer, for a
text its typography and for anything else its appearance. -/
structure Exhibit.Faithful (x : Exhibit) : Prop where
  named : x.name ∈ x.element.classes
  declared : if x.layer.kind = .text then x.declarations = x.layer.typography
    else x.layer.declarations = .ok x.declarations

/-- The rule of an exhibit. -/
def Exhibit.rule (x : Exhibit) : String × Declarations :=
  (x.name, x.declarations)

/-- **Layers and elements side by side.** If elements have the classes of layers that were entered, then
each layer has one exhibit, with its class and what it declares. -/
theorem Entered.exhibits {options : Options} {j j' : Journal} {ls : List Layer}
    {ds : List Declarations} (h : Entered options j ls ds j') :
    ∀ {k : Nat} {es : List Piece}, Named (Layer.ownClasses options k ls) es →
      ∃ xs : List Exhibit, xs.map Exhibit.layer = ls ∧ xs.map Exhibit.element = es ∧
        (∀ x ∈ xs, x.Faithful) ∧ xs.map Exhibit.name = Layer.ownClasses options k ls ∧
        xs.map Exhibit.rule = (Layer.ownClasses options k ls).zip ds := by
  induction h with
  | nil =>
    intro k es hes
    cases hes
    exact ⟨[], rfl, rfl, fun x hx => absurd hx List.not_mem_nil, rfl, rfl⟩
  | @cons _ _ l d ls ds hd _ ih =>
    intro k es hes
    cases hes with
    | @cons _ e _ es hmem hes =>
      obtain ⟨xs, hlayers, helements, hfaithful, hnames, hrules⟩ := ih hes
      refine ⟨⟨l, l.ownClass options k, d, e⟩ :: xs, ?_, ?_, ?_, ?_, ?_⟩
      · rw [List.map_cons, hlayers]
      · rw [List.map_cons, helements]
      · intro x hx
        rcases List.mem_cons.mp hx with rfl | hx
        · exact ⟨hmem, Layer.declares_of_role hd⟩
        · exact hfaithful x hx
      · rw [List.map_cons, hnames, Layer.ownClasses]
      · rw [List.map_cons, hrules, Layer.ownClasses, List.zip_cons_cons]
        rfl

/-- The rules of exhibits: those that declare nothing have none. -/
def Exhibit.rules (xs : List Exhibit) : List (String × Declarations) :=
  (xs.filter fun x => !x.declarations.isEmpty).map Exhibit.rule

/-- The rules of layers are those of their exhibits. -/
theorem Exhibit.rules_eq {options : Options} {k : Nat} {ls : List Layer} {ds : List Declarations}
    {xs : List Exhibit} (h : xs.map Exhibit.rule = (Layer.ownClasses options k ls).zip ds) :
    Exhibit.rules xs = Layer.ownRules options k ls ds := by
  rw [Layer.ownRules, ← h, List.filter_map]
  rfl

/-! ## What is not shown -/

mutual

/-- A design without the nodes below texts, buttons and images. -/
def Node.pruned (options : Options) : Node → Node
  | .node l children =>
    .node l (if (l.role options).showsChildren then Node.prunedAll options children else [])

/-- Several designs without the nodes below texts, buttons and images. -/
def Node.prunedAll (options : Options) : List Node → List Node
  | [] => []
  | n :: rest => n.pruned options :: Node.prunedAll options rest

end

mutual

/-- **What is not shown has no part in a walk.** -/
theorem toElement_pruned (options : Options) (n : Node) :
    (n.pruned options).toElement options = n.toElement options := by
  match n with
  | .node l children =>
    rw [Node.pruned, Node.toElement, Node.toElement]
    split
    · rw [toElements_pruned options children]
    · rfl

theorem toElements_pruned (options : Options) (ns : List Node) :
    Node.toElements options (Node.prunedAll options ns) = Node.toElements options ns := by
  match ns with
  | [] => rw [Node.prunedAll]
  | n :: rest =>
    rw [Node.prunedAll, Node.toElements, Node.toElements, toElement_pruned options n,
      toElements_pruned options rest]

end

/-! ## The two outputs of a conversion -/

/-- Lines of a node that are written, with a journal, are the lines of its element. -/
theorem renderNoted_ok {options : Options} {n : Node} {depth : Int} {j j' : Journal} {html : String}
    (h : (renderNoted options (some n) depth).run j = (.ok html, j')) :
    ∃ e, (n.toElementNoted options).run j = (.ok e, j') ∧ html = e.render depth := by
  rw [renderNoted] at h
  obtain ⟨_, j₁, hdepth, hrest⟩ := ok_of_run_bind h
  obtain ⟨-, rfl⟩ := Prod.mk.inj
    (hdepth : ((checkDepth depth).mapError ConversionError.depth, j) = (Except.ok _, j₁))
  obtain ⟨e, j₂, he, hrest⟩ := ok_of_run_bind hrest
  obtain ⟨hhtml, rfl⟩ := Prod.mk.inj
    (hrest : (Except.ok (e.render depth), j₂) = (Except.ok html, j'))
  exact ⟨e, he, (Except.ok.inj hhtml).symm⟩

/-- **The exhibits of a design as it is written**: one for each shown layer, in the order of the walk, and
one for each element that is read of what was written, in document order. -/
structure Exhibited (options : Options) (n : Node) (html : String) (xs : List Exhibit) : Prop where
  layers : xs.map Exhibit.layer = n.shown options
  elements : ∃ pieces root, Markup.read html = some pieces ∧ elementsOf pieces = [root] ∧
    xs.map Exhibit.element = root.elements
  faithful : ∀ x ∈ xs, x.Faithful

/-- **A conversion that succeeds exhibits its design**, whatever was converted before: the journal has the
classes of the exhibits after those that it had, and the stylesheet their rules after its own. -/
theorem exhibited_convert {options : Options} {n : Node} {j j' : Journal} {r : Result}
    (hj : j.Sound) (h : (convertNoted options (some n)).run j = (.ok r, j')) :
    ∃ xs, Exhibited options n r.html xs ∧ j'.Sound ∧
      j'.minted = j.minted ++ xs.map Exhibit.name ∧
      j'.context.counter = j.context.counter + (n.shown options).length ∧
      j'.context.styles.rules = j.context.styles.rules ++ Exhibit.rules xs := by
  -- from the same run: the list of entered layers, and the element that depicts the design
  obtain ⟨html, j₁, hrender, hend⟩ := ok_of_run_bind h
  obtain ⟨hr, rfl⟩ := Prod.mk.inj
    (hend : (Except.ok (⟨html, componentsOf (some n)⟩ : Result), j₁) = (Except.ok r, j'))
  obtain rfl := Except.ok.inj hr
  obtain ⟨e, helement, rfl⟩ := renderNoted_ok hrender
  obtain ⟨ds, hentered⟩ := entered_toElement options n helement
  have hplain := toElement_erases options n j
  rw [helement] at hplain
  obtain ⟨hclean, hdepicts, -⟩ := depicts_toElement options n hplain
  obtain ⟨pieces, hread, hroot, -⟩ := read_root hclean options.rootDepth
  obtain ⟨xs, hlayers, helements, hfaithful, hnames, hrules⟩ :=
    hentered.exhibits (named_elements options n (hdepicts options.rootDepth))
  obtain ⟨hsound, hminted, hcounter, hleft⟩ := hentered.leaves hj
  rw [← hnames] at hminted
  rw [← Exhibit.rules_eq hrules] at hleft
  exact ⟨xs, ⟨hlayers, ⟨pieces, _, hread, hroot, helements⟩, hfaithful⟩, hsound, hminted, hcounter, hleft⟩

/-- **The markup and the stylesheet agree.** In a fresh context a conversion that succeeds makes, for
each shown layer, one element and one set of declarations, in the order of the walk: the class minted for
the layer stands in the element, and under that class the stylesheet has the declarations, unless there
are none. It has no other rules, the counter is the number of shown layers, and without the nodes that
are not shown everything would be the same. -/
theorem convert_exhibits (options : Options) (n : Node) (r : Result) (c : Context)
    (h : (convert options (some n)).run .fresh = (.ok r, c)) :
    ∃ pieces root, Markup.read r.html = some pieces ∧ elementsOf pieces = [root] ∧
      (∃ xs : List Exhibit, xs.map Exhibit.layer = n.shown options ∧
        xs.map Exhibit.element = root.elements ∧ (∀ x ∈ xs, x.Faithful) ∧
        xs.map Exhibit.name = ((convertNoted options (some n)).run .start).2.minted ∧
        (xs.map Exhibit.name).Nodup ∧
        c.styles.rules = (xs.filter fun x => !x.declarations.isEmpty).map Exhibit.rule) ∧
      c.counter = (n.shown options).length ∧
      (renderNode options (some (n.pruned options)) options.rootDepth).run .fresh = (.ok r.html, c) := by
  have hplain := convert_erases options (some n) .start
  rcases hnoted : (convertNoted options (some n)).run .start with ⟨result, j⟩
  rw [hnoted] at hplain
  obtain ⟨rfl, rfl⟩ := Prod.mk.inj (hplain.symm.trans h)
  obtain ⟨xs, ⟨hlayers, ⟨pieces, root, hread, hroot, helements⟩, hfaithful⟩, hsound, hminted, hcounter,
    hrules⟩ := exhibited_convert sound_start hnoted
  have hnames : xs.map Exhibit.name = j.minted := hminted.symm
  have hrender : (renderNode options (some n) options.rootDepth).run .fresh =
      (.ok r.html, j.context) := by
    obtain ⟨html, c, hrender, hend⟩ := ok_of_run_bind h
    obtain ⟨hr, rfl⟩ := Prod.mk.inj
      (hend : (Except.ok (⟨html, componentsOf (some n)⟩ : Result), c) = (Except.ok r, j.context))
    obtain rfl := Except.ok.inj hr
    exact hrender
  refine ⟨pieces, root, hread, hroot,
    ⟨xs, hlayers, helements, hfaithful, hnames, ?_, hrules⟩, ?_, ?_⟩
  · rw [hnames]
    exact hsound.nodup
  · exact hcounter.trans (Nat.zero_add _)
  · rw [← hrender, renderNode, renderNode, toElement_pruned]

theorem sampleDesign_exhibited :
    ∃ r c, (convert {} (some sampleDesign)).run .fresh = (.ok r, c) ∧
      c.styles.rules = [("img-3", [("width", "40px")])] ∧
      ∃ pieces root, Markup.read r.html = some pieces ∧ elementsOf pieces = [root] ∧
        (∃ xs : List Exhibit, xs.map Exhibit.layer = sampleDesign.shown {} ∧
          xs.map Exhibit.element = root.elements ∧ (∀ x ∈ xs, x.Faithful) ∧
          xs.map Exhibit.name = ((convertNoted {} (some sampleDesign)).run .start).2.minted ∧
          (xs.map Exhibit.name).Nodup ∧
          c.styles.rules = (xs.filter fun x => !x.declarations.isEmpty).map Exhibit.rule) ∧
        c.counter = (sampleDesign.shown {}).length ∧
        (renderNode {} (some (sampleDesign.pruned {})) 2).run .fresh = (.ok r.html, c) := by
  have hok : ((convert {} (some sampleDesign)).run .fresh).1.toOption.isSome = true := by
    decide +kernel
  have hrules : ((convert {} (some sampleDesign)).run .fresh).2.styles.rules =
      [("img-3", [("width", "40px")])] := by
    decide +kernel
  obtain ⟨r, hr⟩ := Option.isSome_iff_exists.mp hok
  have hrun := run_of_toOption hr
  exact ⟨r, _, hrun, hrules, convert_exhibits {} sampleDesign r _ hrun⟩

end DesignMarkup
