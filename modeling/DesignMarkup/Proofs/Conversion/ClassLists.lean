import DesignMarkup.Proofs.Conversion.Catalogue
import DesignMarkup.Proofs.Layout.Compatible

/-!
# `Proofs.Conversion.ClassLists` — the classes at every element of a conversion

Every element of a conversion is that of a layer that was entered, and its classes were settled then. The class
lists of the elements, in document order, are therefore those of the shown layers, in the order of the walk,
with the numbers that follow the counter; and they are read from the text as they were settled.

## Contents

* `Element.classLists`, `classes_elements`: class lists in document order, and their reading;
* `Classed`, `toElement_classed`: **the class lists of a walk**;
* `renderNode_compatible`: **no element has classes that contradict each other**.
-/

namespace DesignMarkup

open Html Markup

/-! ## Class lists in document order -/

mutual

/-- The class lists of an element and of all elements below it, in document order. -/
def Html.Element.classLists : Element → List (List String)
  | .text _ classes _ => [classes]
  | .image classes _ => [classes]
  | .block _ classes children => classes :: Html.Element.allClassLists children

/-- The class lists of several elements. -/
def Html.Element.allClassLists : List Element → List (List String)
  | [] => []
  | e :: rest => e.classLists ++ Html.Element.allClassLists rest

end

/-- The elements of what is read of an element: itself, and those below it. -/
theorem elements_piece (e : Element) (depth : Int) :
    (e.piece depth).elements = e.piece depth :: elementsBelow (elementsOf (e.piece depth).content) := by
  rw [elementsBelow_elementsOf]
  cases e <;> rfl

mutual

/-- **The class lists are read as they are**, if they are of words and none is empty. -/
theorem classes_elements (e : Element) (hclean : e.IsClean) (hne : [] ∉ e.classLists) (depth : Int) :
    (e.piece depth).elements.map Piece.classes = e.classLists := by
  match e with
  | .text tag classes content =>
    have hclasses : classes ≠ [] := fun he => hne (he ▸ List.mem_singleton_self _)
    rw [elements_piece, (content_text depth tag classes content).1]
    exact congrArg (fun cs => [cs]) (classes_classPair hclasses hclean.2)
  | .image classes alt =>
    have hclasses : classes ≠ [] := fun he => hne (he ▸ List.mem_singleton_self _)
    rw [elements_piece]
    exact congrArg (fun cs => [cs]) (classes_classPair hclasses hclean)
  | .block tag classes children =>
    obtain ⟨hfirst, hbelow⟩ := not_or.mp (mt List.mem_cons.mpr hne)
    rw [elements_piece, (content_block depth tag classes children).2, List.map_cons,
      classes_allElements children hclean.2.2 hbelow (depth + 1)]
    exact congrArg (· :: _) (classes_classPair (Ne.symm hfirst) hclean.2.1)

theorem classes_allElements (es : List Element) (hclean : Element.AllClean es)
    (hne : [] ∉ Element.allClassLists es) (depth : Int) :
    (elementsBelow (es.map (Element.piece depth))).map Piece.classes = Element.allClassLists es := by
  match es with
  | [] => rfl
  | e :: rest =>
    obtain ⟨hfirst, hrest⟩ := not_or.mp (mt List.mem_append.mpr hne)
    rw [List.map_cons, elementsBelow, List.map_append, classes_elements e hclean.1 hfirst depth,
      classes_allElements rest hclean.2 hrest depth, Element.allClassLists]

end

/-! ## The class lists of a walk -/

/-- **Class lists settled for layers**, which have numbers in a row from `k` on. -/
def Classed (options : Options) (k : Nat) (ls : List Layer) (css : List (List String)) : Prop :=
  List.Forall₂ (fun x cs => x.1.roleClasses (x.1.role options) (x.1.ownClass options x.2) = .ok cs)
    (ls.zipIdx k) css

section Walk

variable {options : Options} {k : Nat} {ls ms : List Layer} {css dss : List (List String)}

theorem Classed.append (hl : Classed options k ls css) (hm : Classed options (k + ls.length) ms dss) :
    Classed options k (ls ++ ms) (css ++ dss) := by
  rw [Classed, List.zipIdx_append]
  exact List.rel_append hl hm

end Walk

mutual

/-- **The class lists of a walk** are those of the shown layers. -/
theorem toElement_classed (options : Options) (n : Node) {c c' : Context} {e : Element}
    (h : (n.toElement options).run c = (.ok e, c')) :
    Classed options (c.counter + 1) (n.shown options) e.classLists := by
  match n with
  | .node l children =>
    obtain ⟨classes, c₁, henter, hrest⟩ := Node.toElement_ok h
    obtain ⟨d, -, hclasses, -⟩ := Layer.enter_ok henter
    have hcount := counter_enter henter
    have halone : Classed options (c.counter + 1) [l] [classes] := .cons hclasses .nil
    rw [Node.shown]
    -- of a text, a button and an image no more is shown than the node itself
    generalize hrole : l.role options = r at hrest
    cases r with
    | text =>
      obtain ⟨rfl, rfl⟩ := hrest
      exact halone
    | container =>
      obtain ⟨es, hes, rfl⟩ := hrest
      exact halone.append (hcount ▸ toElements_classed options children hes)
    | button =>
      obtain ⟨rfl, rfl⟩ := hrest
      exact halone
    | image =>
      obtain ⟨rfl, rfl⟩ := hrest
      exact halone
    | plain =>
      obtain ⟨es, hes, rfl⟩ := hrest
      exact halone.append (hcount ▸ toElements_classed options children hes)

theorem toElements_classed (options : Options) (ns : List Node) {c c' : Context} {es : List Element}
    (h : (Node.toElements options ns).run c = (.ok es, c')) :
    Classed options (c.counter + 1) (Node.shownAll options ns) (Element.allClassLists es) := by
  match ns with
  | [] =>
    obtain ⟨he, rfl⟩ := Prod.mk.inj (h : (Except.ok [], c) = (Except.ok es, c'))
    obtain rfl := Except.ok.inj he
    exact .nil
  | n :: rest =>
    obtain ⟨e, c₁, hn, h⟩ := ok_of_run_bind h
    obtain ⟨es', c₂, hrest, h⟩ := ok_of_run_bind h
    obtain ⟨he, rfl⟩ := Prod.mk.inj (h : (Except.ok (e :: es'), c₂) = (Except.ok es, c'))
    obtain rfl := Except.ok.inj he
    have hclassed := toElements_classed options rest hrest
    rw [(depicts_toElement options n hn).2.2, Nat.add_right_comm] at hclassed
    exact (toElement_classed options n hn).append hclassed

end

/-! ## Whole conversions -/

/-- **No element of a conversion has classes that contradict each other.** What is written is one tree, and its
elements, in document order, are those of the shown layers, in the order of the walk. The classes of each are
compatible with one another, and with the role of its layer and the class minted for it. -/
theorem renderNode_compatible (options : Options) (n : Node) (depth : Int) (c c' : Context)
    (html : String) (h : (renderNode options (some n) depth).run c = (.ok html, c')) :
    ∃ pieces root, Markup.read html = some pieces ∧ elementsOf pieces = [root] ∧
      List.Forall₂ (fun x p => Compatible x.1 (x.1.role options) (x.1.ownClass options x.2) p.classes)
        ((n.shown options).zipIdx (c.counter + 1)) root.elements := by
  obtain ⟨-, e, he, rfl⟩ := renderNode_ok h
  obtain ⟨hclean, -, -⟩ := depicts_toElement options n he
  obtain ⟨pieces, hread, hroot, -⟩ := read_root hclean depth
  have hcompatible : List.Forall₂
      (fun x cs => Compatible x.1 (x.1.role options) (x.1.ownClass options x.2) cs)
      ((n.shown options).zipIdx (c.counter + 1)) e.classLists :=
    (toElement_classed options n he).imp fun _ _ => Layer.roleClasses_compatible
  have hnonempty : ∀ cs ∈ e.classLists, cs ≠ [] :=
    ((List.forall₂_and_left (p := (· ≠ [])) _ _).mp
      (hcompatible.flip.imp fun _ _ h => ⟨h.ne_nil, h⟩)).1
  have hne : [] ∉ e.classLists := fun hnil => hnonempty [] hnil rfl
  refine ⟨pieces, e.piece depth, hread, hroot, ?_⟩
  rw [← classes_elements e hclean hne depth] at hcompatible
  exact List.forall₂_map_right_iff.mp hcompatible

/-- A design with a layout, whose gap is a distance and a part of the flow. -/
def stackedDesign : Node :=
  .node { Layer.bare .frame "Card" none with
      padding := ⟨some (.int 8), some (.int 8), some (.int 16), none⟩
      layoutMode := some "VERTICAL"
      itemSpacing := some (.int 12)
      primaryAlign := some "CENTER" }
    [.node (.bare .text "Title" (some "Hello")) [],
     .node { Layer.bare .other "Go button" none with
      padding := ⟨some (.int 4), some (.int 4), none, none⟩ } []]

/-- What is written of it. -/
def stackedMarkup : String :=
  "<section class=\"frame-1 ps-2 pe-2 pt-4 gap-3 d-flex flex-column justify-content-center\">\n" ++
  "  <p class=\"text-2\">Hello</p>\n" ++
  "  <button class=\"btn btn-primary btn-3 px-1\">Go button</button>\n" ++
  "</section>\n"

theorem stackedDesign_compatible :
    ((renderNode {} (some stackedDesign) 0).run .fresh).1.toOption = some stackedMarkup ∧
    ∃ pieces root, Markup.read stackedMarkup = some pieces ∧ elementsOf pieces = [root] ∧
      List.Forall₂ (fun x p => Compatible x.1 (x.1.role {}) (x.1.ownClass {} x.2) p.classes)
        ((stackedDesign.shown {}).zipIdx 1) root.elements := by
  have hrun : ((renderNode {} (some stackedDesign) 0).run .fresh).1.toOption = some stackedMarkup := by
    decide +kernel
  exact ⟨hrun, renderNode_compatible {} stackedDesign 0 .fresh _ _ (run_of_toOption hrun)⟩

end DesignMarkup
