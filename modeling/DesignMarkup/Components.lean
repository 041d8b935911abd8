import DesignMarkup.Design

/-!
# `Components` — the components that a design uses

## Contents

* `scanComponents`: the components, instances and frames below a node;
* `ComponentInfo`, `Layer.info`: what is reported of each.
-/

namespace DesignMarkup

/-- The kinds that are reported. -/
def Kind.isReported (k : Kind) : Bool :=
  k == .component || k == .inst || k == .frame

/-- The kinds whose children are looked at. -/
def Kind.isScanned (k : Kind) : Bool :=
  k == .frame || k == .group

mutual

/-- The node itself if it is reported, and the reported layers below it if it is searched. -/
def scanNode : Node → List Layer
  | .node l children =>
    (if l.kind.isReported then [l] else []) ++ (if l.kind.isScanned then scanNodes children else [])

/-- The reported layers among these nodes and below those of them that are searched. -/
def scanNodes : List Node → List Layer
  | [] => []
  | n :: rest => scanNode n ++ scanNodes rest

end

/-- **The components of a node**: the reported layers strictly below it, parents before children. Only
frames and groups are searched further. -/
def scanComponents (n : Node) : List Layer :=
  scanNodes n.children

/-- What is reported of a component. -/
structure ComponentInfo where
  name : String
  typeName : String
  id : String
  deriving DecidableEq, Repr

/-- The report of a layer; without a type name it is reported by its kind. -/
def Layer.info (l : Layer) : ComponentInfo :=
  ⟨l.name, if l.typeName = "" then l.kind.name else l.typeName, l.id⟩

end DesignMarkup
