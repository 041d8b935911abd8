/-!
# `Options` — settings of a conversion

## Contents

* `defaultVersion`: the release of the style framework that pages link to;
* `Options`: the settings;
* `Overrides`, `Options.override`: settings that may or may not be given.
-/

namespace DesignMarkup

/-- The release of the style framework that pages link to unless another is set. -/
def defaultVersion : String :=
  "5.3.0"

/-- The settings of one conversion. -/
structure Options where
  /-- The title of the page. -/
  title : String := "Figma Design"
  /-- The page lies one folder below its stylesheet. -/
  isChild : Bool := false
  /-- The depth at which the converted design is indented. -/
  rootDepth : Int := 2
  /-- Instances of components become buttons. -/
  instanceAsButton : Bool := false
  /-- The release of the style framework. -/
  bootstrapVersion : String := defaultVersion
  deriving DecidableEq, Repr

/-- Settings that replace others where they are given. -/
structure Overrides where
  title : Option String := none
  isChild : Option Bool := none
  rootDepth : Option Int := none
  instanceAsButton : Option Bool := none
  bootstrapVersion : Option String := none
  deriving DecidableEq, Repr

/-- The settings with those given replaced. -/
def Options.override (o : Options) (given : Overrides) : Options where
  title := given.title.getD o.title
  isChild := given.isChild.getD o.isChild
  rootDepth := given.rootDepth.getD o.rootDepth
  instanceAsButton := given.instanceAsButton.getD o.instanceAsButton
  bootstrapVersion := given.bootstrapVersion.getD o.bootstrapVersion

end DesignMarkup
