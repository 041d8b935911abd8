import DesignMarkup.Components
import DesignMarkup.Html
import DesignMarkup.Layout.Classes
import DesignMarkup.Options
import DesignMarkup.Style.Table

/-!
# `Conversion` — from a design to elements and rules

A conversion walks a design, parents before children. At each node that is shown it takes the next
number for the node's class, records the node's declarations under that class and then settles the
node's other classes. What it has counted and recorded stays if a later length or colour cannot be
rounded.

## Contents

* `Role`, `Layer.role`: how a node is shown;
* `ConversionError`: why a conversion fails;
* `Context`, `Conversion`, `mint`: the counter and the stylesheet that a conversion works on;
* `Node.toElement`: the walk;
* `Result`, `convert`: a whole design.
-/

namespace DesignMarkup

/-! ## Roles -/

/-- How a node is shown. -/
inductive Role where
  /-- A heading or a paragraph. -/
  | text
  /-- A box around the children, with flow. -/
  | container
  /-- A button. -/
  | button
  /-- An image. -/
  | image
  /-- A box around the children, without flow. -/
  | plain
  deriving DecidableEq, Repr

/-- The kinds that are containers. -/
def Kind.isContainer : Kind → Bool
  | .rectangle | .frame | .group | .component | .inst => true
  | _ => false

/-- The text occurs in the other. -/
def occursIn (part : List Char) : List Char → Bool
  | [] => part.isEmpty
  | c :: rest => part.isPrefixOf (c :: rest) || occursIn part rest

/-- The name tells of a button, in whatever case. -/
def namesButton (name : String) : Bool :=
  occursIn "button".toList (Text.lowercase name.toList)

/-- **The role of a node.** Text comes first; containers next, unless instances are to be buttons; then
instances and nodes that are named like a button; then images; everything else is a plain box. -/
def Layer.role (l : Layer) (options : Options) : Role :=
  if l.kind = .text then .text
  else if l.kind.isContainer && !(options.instanceAsButton && l.kind == .inst) then .container
  else if l.kind = .inst || namesButton l.name then .button
  else if l.kind = .image then .image
  else .plain

/-- The children of a node are shown inside boxes only. -/
def Role.showsChildren : Role → Bool
  | .container | .plain => true
  | _ => false

/-- The first part of the class of a node. -/
def Role.stem (r : Role) (k : Kind) : String :=
  match r with
  | .text => "text"
  | .container => k.className
  | .button => "btn"
  | .image => "img"
  | .plain => "container"

/-- The tag of a heading or paragraph: larger text has the higher heading. -/
def TextStyle.tag (s : TextStyle) : String :=
  let size := s.fontSize.getD (.int 0)
  if size.gtInt 24 then "h1"
  else if size.gtInt 20 then "h2"
  else if size.gtInt 16 then "h3"
  else "p"

/-- The tag of a box. -/
def Role.boxTag (r : Role) (k : Kind) : String :=
  if r = .container ∧ (k = .frame ∨ k = .component) then "section" else "div"

/-- A text unless it is empty, then another. -/
def textOr (s other : String) : String :=
  if s = "" then other else s

/-- The label of a button: its characters, or else its name, or else a general one. -/
def Layer.buttonLabel (l : Layer) : String :=
  textOr (l.characters.getD "") (textOr l.name "Button")

/-- The declarations of a node in its role. -/
def Layer.roleDeclarations (l : Layer) (r : Role) : Except RoundingError Declarations :=
  if r = .text then .ok l.typography else l.declarations

/-- The classes of a node in its role, with the class `own` minted for it. -/
def Layer.roleClasses (l : Layer) (r : Role) (own : String) : Except RoundingError (List String) :=
  match r with
  | .text => .ok [own]
  | .container => do
    let spacing ← Layout.spacingClasses l
    let flex ← Layout.flexClasses l
    return Layout.mergeClasses [[own], spacing, flex]
  | .button => do
    let spacing ← Layout.spacingClasses l
    return Layout.mergeClasses [["btn", "btn-primary", own], spacing]
  | .image => do
    let spacing ← Layout.spacingClasses l
    return Layout.mergeClasses [[own, "img-fluid"], spacing]
  | .plain => do
    let spacing ← Layout.spacingClasses l
    return Layout.mergeClasses [[own], spacing]

/-- The element of a node in its role. -/
def Layer.element (l : Layer) (r : Role) (classes : List String) (children : List Html.Element) :
    Html.Element :=
  match r with
  | .text => .text l.textStyle.tag classes (l.characters.getD "")
  | .button => .text "button" classes l.buttonLabel
  | .image => .image classes (textOr l.name "image")
  | .container | .plain => .block (r.boxTag l.kind) classes children

/-! ## The state of a conversion -/

/-- Why a conversion fails. -/
inductive ConversionError where
  | rounding (e : RoundingError)
  | depth (e : Html.DepthError)
  deriving DecidableEq, Repr

/-- What conversions share: the number of classes minted so far and the stylesheet. -/
structure Context where
  counter : Nat
  styles : StyleTable
  deriving DecidableEq, Repr

/-- The context before the first conversion. -/
def Context.fresh : Context :=
  ⟨0, .empty⟩

/-- A computation on a context that may fail; the context outlives the failure. -/
abbrev Conversion := ExceptT ConversionError (StateM Context)

/-- The next class with this stem: the count of classes follows the stem after a hyphen. -/
def mint (stem : String) : Conversion String :=
  fun c => (.ok (stem ++ "-" ++ toString (c.counter + 1)), { c with counter := c.counter + 1 })

/-- The declarations of a class go into the stylesheet. -/
def recordRule (name : String) (declarations : Declarations) : Conversion Unit :=
  fun c => (.ok (), { c with styles := c.styles.record name declarations })

/-- A rounding as a step that leaves the context alone. -/
def rounding {α : Type} (r : Except RoundingError α) : Conversion α :=
  fun c => (r.mapError .rounding, c)

/-- A depth at which lines are to be written, as a step that leaves the context alone. -/
def entering (depth : Int) : Conversion Unit :=
  fun c => ((Html.checkDepth depth).mapError .depth, c)

/-! ## The walk -/

/-- What is done at a node before its children: its class is minted, its declarations are recorded, and
its classes are settled. -/
def Layer.enter (l : Layer) (r : Role) : Conversion (List String) := do
  let own ← mint (r.stem l.kind)
  let declarations ← rounding (l.roleDeclarations r)
  recordRule own declarations
  rounding (l.roleClasses r own)

mutual

/-- **The element of a node**: the node itself first, then the children that it shows. -/
def Node.toElement (options : Options) : Node → Conversion Html.Element
  | .node l children => do
    let role := l.role options
    let classes ← l.enter role
    if role.showsChildren then
      let elements ← Node.toElements options children
      return l.element role classes elements
    else return l.element role classes []

/-- The elements of several nodes in order. -/
def Node.toElements (options : Options) : List Node → Conversion (List Html.Element)
  | [] => return []
  | n :: rest => do
    let e ← Node.toElement options n
    let es ← Node.toElements options rest
    return e :: es

end

/-- The lines of a node at a depth, at which it must be possible to write lines; no node has none. -/
def renderNode (options : Options) (root : Option Node) (depth : Int) : Conversion String :=
  match root with
  | none => return ""
  | some n => do
    entering depth
    let e ← n.toElement options
    return e.render depth

/-! ## Whole designs -/

/-- What a conversion yields besides the rules in the context. -/
structure Result where
  html : String
  components : List Layer
  deriving DecidableEq

/-- The components of a design; no design has none. -/
def componentsOf (root : Option Node) : List Layer :=
  (root.map scanComponents).getD []

/-- **Conversion of a design** in a shared context. -/
def convert (options : Options) (root : Option Node) : Conversion Result := do
  let html ← renderNode options root options.rootDepth
  return ⟨html, componentsOf root⟩

end DesignMarkup
