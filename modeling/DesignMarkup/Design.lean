import DesignMarkup.Number

/-!
# `Design` — the tree of a design

A design is a tree of nodes. What a node shows by itself is its layer; the tree adds only the children.

## Contents

* `Kind`: what a node is;
* `Color`, `Paint`, `Effect`, `TextStyle`, `Padding`: parts of its appearance;
* `Layer`, `Node`: a node without and with its children;
* `Node.walk`: all nodes, parents before children.
-/

namespace DesignMarkup

/-! ## Kinds -/

/-- What a node is; types without a kind of their own are `other`. -/
inductive Kind where
  | text
  | rectangle
  | frame
  | group
  | component
  | inst
  | image
  | other
  deriving DecidableEq, Repr

namespace Kind

/-- The kinds in order. -/
def all : List Kind :=
  [.text, .rectangle, .frame, .group, .component, .inst, .image, .other]

/-- The type name of a kind. -/
def name : Kind → String
  | .text => "TEXT"
  | .rectangle => "RECTANGLE"
  | .frame => "FRAME"
  | .group => "GROUP"
  | .component => "COMPONENT"
  | .inst => "INSTANCE"
  | .image => "IMAGE"
  | .other => "OTHER"

/-- The kind with a type name; any other name, and none at all, is `other`. -/
def ofName (typeName : Option String) : Kind :=
  (all.find? fun k => typeName == some k.name).getD .other

/-- The name of a kind in class names. -/
def className : Kind → String
  | .text => "text"
  | .rectangle => "rectangle"
  | .frame => "frame"
  | .group => "group"
  | .component => "component"
  | .inst => "instance"
  | .image => "image"
  | .other => "other"

end Kind

/-! ## Appearance -/

/-- A colour with channels from zero to one. -/
structure Color where
  red : Number
  green : Number
  blue : Number
  alpha : Number
  deriving DecidableEq

/-- The number one as a double, the opacity of a colour that gives none. -/
def Color.fullAlpha : Number :=
  .double (Binary64.round false 1 1)

/-- A fill or a stroke. -/
structure Paint where
  typeName : String
  color : Option Color
  deriving DecidableEq

/-- Only solid paints have a colour in the page. -/
def Paint.isSolid (p : Paint) : Bool :=
  p.typeName == "SOLID"

/-- An effect; those that are drop shadows are shown. -/
structure Effect where
  typeName : String
  visible : Option Bool
  offsetX : Number
  offsetY : Number
  radius : Number
  spread : Number
  color : Option Color
  deriving DecidableEq

/-- The effect is a drop shadow. -/
def Effect.isDropShadow (e : Effect) : Bool :=
  e.typeName == "DROP_SHADOW"

/-- The effect is shown: it is a drop shadow that is not switched off. -/
def Effect.isShown (e : Effect) : Bool :=
  e.isDropShadow && e.visible != some false

/-- How a text is set. -/
structure TextStyle where
  fontSize : Option Number
  fontWeight : Option Number
  lineHeight : Option Number
  letterSpacing : Option Number
  align : Option String
  deriving DecidableEq

/-- A text style that sets nothing. -/
def TextStyle.unset : TextStyle :=
  ⟨none, none, none, none, none⟩

/-- A measure that is given and not zero. -/
def isSet (measure : Option Number) : Bool :=
  measure.any (!·.isZero)

/-- The padding of a node, side by side. -/
structure Padding where
  left : Option Number
  right : Option Number
  top : Option Number
  bottom : Option Number
  deriving DecidableEq

/-- Some side has padding. -/
def Padding.isSet (p : Padding) : Bool :=
  DesignMarkup.isSet p.left || DesignMarkup.isSet p.right || DesignMarkup.isSet p.top ||
    DesignMarkup.isSet p.bottom

/-! ## Nodes -/

/-- A node of a design without its children. -/
structure Layer where
  kind : Kind
  name : String
  id : String
  typeName : String
  fills : List Paint
  strokes : List Paint
  strokeWeight : Option Number
  effects : List Effect
  cornerRadius : Option Number
  width : Option Number
  height : Option Number
  layoutMode : Option String
  primaryAlign : Option String
  counterAlign : Option String
  itemSpacing : Option Number
  padding : Padding
  characters : Option String
  textStyle : TextStyle
  deriving DecidableEq

/-- A node of a design. -/
inductive Node where
  | node (layer : Layer) (children : List Node)

namespace Node

/-- What the node shows by itself. -/
def layer : Node → Layer
  | .node l _ => l

/-- The nodes directly below. -/
def children : Node → List Node
  | .node _ cs => cs

mutual

/-- The layers of a node and of all nodes below it, parents before children. -/
def walk : Node → List Layer
  | .node l cs => l :: walkAll cs

/-- The layers of several trees one after the other. -/
def walkAll : List Node → List Layer
  | [] => []
  | n :: rest => walk n ++ walkAll rest

end

end Node

end DesignMarkup
